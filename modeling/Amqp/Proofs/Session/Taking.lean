import Amqp.Proofs.Session.Sending
import Mathlib.Logic.Function.Iterate

/-!
# What a session takes

Frames of an attached peer, seen from the face of the session that takes them: a transfer extends or
completes the message of one receiving end (`onTransfer_more`, `onTransfer_last`), an acceptance is
handed to the links behind the peer's handles (`onDisposition_acceptance`), and a flow that neither
drains nor asks for an echo changes nothing (`onFlow_spec`).  What goes out in return are
acceptances and flows of the same kind (`IsGrant`).

Messages and outcomes are given away by the receiving and the sending end (`receive_spec`,
`collectOutcome_spec`).
-/

namespace Amqp.Session

open Acting

/-! ## Faces of changed sessions -/

theorem face_congr {s s' : Session} (hhandles : s'.inputHandles = s.inputHandles)
    (hnext : s'.nextOutgoingId = s.nextOutgoingId)
    (hlinks : ∀ n, (s'.links.get? n).map Link.still = (s.links.get? n).map Link.still) :
    s'.face = s.face := by
  have hsenders : s'.face.senders = s.face.senders := by
    funext n
    change (s'.links.get? n).bind (Link.sender? ∘ Link.still) =
      (s.links.get? n).bind (Link.sender? ∘ Link.still)
    rw [← Option.bind_map, ← Option.bind_map, hlinks]
  have hreceivers : s'.face.receivers = s.face.receivers := by
    funext n
    change (s'.links.get? n).bind (Link.receiver? ∘ Link.still) =
      (s.links.get? n).bind (Link.receiver? ∘ Link.still)
    rw [← Option.bind_map, ← Option.bind_map, hlinks]
  change Face.mk s'.inputHandles s'.nextOutgoingId s'.face.senders s'.face.receivers = s.face
  rw [hhandles, hnext, hsenders, hreceivers]
  rfl

theorem face_withLink_still {s : Session} {name : String} {l l' : Link}
    (h : s.links.get? name = some l) (hstill : l'.still = l.still) :
    (s.withLink name l').face = s.face := by
  refine face_congr rfl rfl fun n => ?_
  change ((s.links.insert name l').get? n).map Link.still = _
  rw [Table.get?_insert]
  split_ifs with hn
  · rw [hn, h, Option.map_some, Option.map_some, hstill]
  · rfl

/-! ## Visiting links -/

/-- Every link reacts as often as its name comes up. -/
theorem get?_visit (react : Link → Link × List Link.Output) (names : List String)
    (links : Table String Link) (n : String) :
    (visit react names links).1.get? n =
      (links.get? n).map (fun l => (react l).1)^[names.count n] := by
  induction names generalizing links with
  | nil => simp [visit]
  | cons name names ih =>
    rw [visit]
    cases hl : links.get? name with
    | none =>
      dsimp only
      rw [ih, List.count_cons]
      by_cases hn : name = n
      · subst hn
        rw [hl]
        rfl
      · rw [if_neg (by simpa using hn)]
        rfl
    | some l =>
      dsimp only
      rw [ih, Table.get?_insert, List.count_cons]
      by_cases hn : name = n
      · subst hn
        rw [if_pos rfl, if_pos (by simp), hl, Option.map_some, Option.map_some,
          Function.iterate_succ_apply]
      · rw [if_neg (Ne.symm hn), if_neg (by simpa using hn)]
        rfl

theorem visit_outputs {react : Link → Link × List Link.Output} (h : ∀ l, (react l).2 = [])
    (names : List String) (links : Table String Link) : (visit react names links).2 = [] := by
  induction names generalizing links with
  | nil => rfl
  | cons name names ih =>
    rw [visit]
    cases links.get? name with
    | none => exact ih links
    | some l =>
      change (react l).2 ++ (visit react names _).2 = []
      rw [h, ih]
      rfl

/-! ## Flows -/

/-- Whether a frame is a flow for at most the link of one handle that neither drains nor asks for an
echo. -/
def IsGrant (handle : UInt32) (p : Performative) : Prop :=
  ∃ f : Flow, p = .flow f ∧ f.drain = false ∧ f.echo = false ∧ f.properties = none ∧
    ∀ h, f.handle = some h → h = handle

theorem isGrant_of_isGrants {handle : UInt32} {outputs : List Link.Output}
    (h : Link.IsGrants handle outputs) (s : Session) :
    ∀ p ∈ outputs.map s.frameOf, IsGrant handle p := by
  intro p hp
  obtain ⟨o, ho, rfl⟩ := List.mem_map.1 hp
  obtain ⟨e, rfl, rfl⟩ := h o ho
  exact ⟨s.toFlow e.toFlow, rfl, rfl, rfl, rfl, fun h hh => (Option.some.inj hh).symm⟩

theorem still_onFlow {flow : Flow} (hdrain : flow.drain = false) (hecho : flow.echo = false)
    (l : Link) : (l.onFlow flow).1.still = l.still ∧ (l.onFlow flow).2 = [] := by
  cases l with
  | sender v =>
    obtain ⟨hstill, houtputs⟩ := Link.Sender.onFlow_spec hdrain hecho v
    exact ⟨congrArg Link.sender hstill, houtputs⟩
  | receiver r =>
    obtain ⟨hstill, houtputs⟩ := Link.Receiver.onFlow_spec hecho r
    exact ⟨congrArg Link.receiver hstill, houtputs⟩

theorem map_still_iterate {react : Link → Link × List Link.Output}
    (h : ∀ l, (react l).1.still = l.still) (k : Nat) (x : Option Link) :
    (x.map (fun l => (react l).1)^[k]).map Link.still = x.map Link.still := by
  have hk : ∀ l, ((fun l => (react l).1)^[k] l).still = l.still := by
    induction k with
    | zero => exact fun _ => rfl
    | succ k ih => exact fun l => (ih _).trans (h l)
  cases x with
  | none => rfl
  | some l => exact congrArg some (hk l)

theorem spreadFlow_spec {flow : Flow} (hdrain : flow.drain = false) (hecho : flow.echo = false)
    (s : Session) : (s.spreadFlow flow).1.face = s.face ∧ (s.spreadFlow flow).2 = [] := by
  unfold spreadFlow
  split_ifs
  · have hreact : ∀ l : Link, ((if l.endpoint.isClosed then (l, []) else l.onFlow flow).1).still =
        l.still ∧ (if l.endpoint.isClosed then (l, []) else l.onFlow flow).2 = [] := by
      intro l
      split_ifs
      · exact ⟨rfl, rfl⟩
      · exact still_onFlow hdrain hecho l
    refine ⟨face_congr rfl rfl fun n => ?_, visit_outputs (fun l => (hreact l).2) _ _⟩
    dsimp only
    rw [get?_visit]
    exact map_still_iterate (fun l => (hreact l).1) _ _
  · exact ⟨rfl, rfl⟩

/-- A flow without drain or echo, for no link or for a known one, changes nothing and is not
answered. -/
theorem onFlow_spec {flow : Flow} {s : Session} (hdrain : flow.drain = false)
    (hecho : flow.echo = false)
    (hknown : ∀ h, flow.handle = some h →
      ∃ name l, s.inputHandles.get? h = some name ∧ s.links.get? name = some l) (o : Outbox) :
    ∃ s', onFlow flow (s, o) = .ok () (s', o) ∧ s'.face = s.face := by
  have hface : (s.learnFlow flow).face = s.face := rfl
  unfold onFlow
  rw [Acting.update_bind, Acting.current_bind]
  cases hh : flow.handle with
  | none =>
    obtain ⟨hspread, houtputs⟩ := spreadFlow_spec hdrain hecho (s.learnFlow flow)
    refine ⟨_, ?_, hspread.trans hface⟩
    dsimp only
    rw [commit_eq, houtputs, List.map_nil, Outbox.add_nil]
  | some h =>
    obtain ⟨name, l, hname, hl⟩ := hknown h hh
    have hl' : (s.learnFlow flow).link name = .ok l := link_eq_ok hl
    obtain ⟨hstill, houtputs⟩ := still_onFlow hdrain hecho l
    have hget : (s.learnFlow flow).inputHandles.get? h = some name := hname
    refine ⟨(s.learnFlow flow).withLink name (l.onFlow flow).1, ?_,
      (face_withLink_still hl hstill).trans hface⟩
    dsimp only
    rw [hget]
    dsimp only
    rw [hl', Action.ofExcept_ok_bind, commit_eq, houtputs, List.map_nil, Outbox.add_nil]

/-! ## Transfers -/

/-- The window that is used up is opened again with a flow of the session. -/
theorem replenish_eq (s : Session) (o : Outbox) (handle : UInt32) :
    ∃ s' flows, replenish (s, o) = .ok () (s', o.add s.channel flows) ∧
      (∀ p ∈ flows, IsGrant handle p) ∧ s'.face = s.face := by
  unfold replenish
  rw [Acting.current_bind]
  by_cases hwindow : s.incomingWindow = 0
  · rw [if_pos hwindow]
    refine ⟨{ s with incomingWindow := s.targetIncomingWindow }, _, rfl, ?_, rfl⟩
    intro p hp
    rw [List.mem_singleton] at hp
    exact ⟨_, hp, rfl, rfl, rfl, by simp [toFlow]⟩
  · rw [if_neg hwindow]
    exact ⟨s, [], by rw [Outbox.add_nil]; rfl, by simp, rfl⟩

/-- A transfer on a known handle is handed to the receiving end behind it. -/
theorem onTransfer_eq {s : Session} {t : Transfer} {name : String} {r r' : Link.Receiver}
    {outputs : List Link.Output} (hname : s.inputHandles.get? t.handle = some name)
    (hlink : s.links.get? name = some (.receiver r)) (h : r.onTransfer t = .ok (r', outputs))
    (o : Outbox) :
    ∃ s₁ s' flows, onTransfer t (s, o) =
        .ok () (s', o.add s.channel (outputs.map (frameOf s₁) ++ flows)) ∧
      (∀ p ∈ flows, IsGrant r.endpoint.handle p) ∧
      s'.face = s.face.withReceiver name r'.still := by
  let s₁ := s.countIncoming.withLink name (.receiver r')
  have hget : s.countIncoming.inputHandles.get? t.handle = some name := hname
  have hlink' : s.countIncoming.links.get? name = some (.receiver r) := hlink
  have hreaction : (Link.receiver r).onTransfer t = .ok (.receiver r', outputs) := by
    change (r.onTransfer t >>= fun x => pure (Link.receiver x.1, x.2)) = _
    rw [h]
    rfl
  have hcommit := commit_eq (s₁, outputs) s.countIncoming o
  obtain ⟨s', flows, hs', hflows, hface⟩ :=
    replenish_eq s₁ (o.add s₁.channel (outputs.map s₁.frameOf)) r.endpoint.handle
  refine ⟨s₁, s', flows, ?_, hflows, hface.trans (face_withLink_receiver hlink' r')⟩
  unfold onTransfer
  rw [Acting.update_bind, Acting.current_bind, hget]
  dsimp only
  rw [link_eq_ok hlink', Action.ofExcept_ok_bind, hreaction, Action.ofExcept_ok_bind]
  dsimp only
  rw [Action.bind_of_ok hcommit, hs', Outbox.add_add]
  rfl

section

variable {s : Session} {t : Transfer} {name : String} {r : Link.Receiver} {m : Link.Message}

/-- A transfer that announces more extends the message in progress of its link. -/
theorem onTransfer_more (hname : s.face.inputHandles.get? t.handle = some name)
    (hreceiver : s.face.receivers name = some r) (hstate : r.endpoint.state = .attached)
    (hpart : r.inProgress.or (Link.Message.start t) = some m) (hkept : t.aborted = false)
    (hsize : Link.Within r.endpoint.maxMessageSize (m.extend t).payload.length)
    (hmore : t.more = true) (o : Outbox) :
    ∃ s' grants, onTransfer t (s, o) = .ok () (s', o.add s.channel grants) ∧
      (∀ p ∈ grants, IsGrant r.endpoint.handle p) ∧
      s'.face = s.face.withReceiver name { r with inProgress := some (m.extend t) } := by
  obtain ⟨w, hlink, rfl⟩ := receivers_eq_some_iff.1 hreceiver
  obtain ⟨r', outputs, htaken, houtputs, hstill⟩ :=
    Link.Receiver.onTransfer_more (r := w) hstate hpart hkept hsize hmore
  obtain ⟨s₁, s', flows, heq, hflows, hface⟩ := onTransfer_eq hname hlink htaken o
  rw [hstill] at hface
  refine ⟨s', _, heq, fun p hp => ?_, hface⟩
  rcases List.mem_append.1 hp with hp | hp
  · exact isGrant_of_isGrants houtputs s₁ p hp
  · exact hflows p hp

/-- The last transfer of a delivery queues the message at its link.  If it is unsettled, an end that
accepts by itself does so. -/
theorem onTransfer_last (hname : s.face.inputHandles.get? t.handle = some name)
    (hreceiver : s.face.receivers name = some r) (hstate : r.endpoint.state = .attached)
    (hpart : r.inProgress.or (Link.Message.start t) = some m) (hkept : t.aborted = false)
    (hsize : Link.Within r.endpoint.maxMessageSize (m.extend t).payload.length)
    (hmore : t.more = false) (o : Outbox) :
    ∃ s' settled grants, onTransfer t (s, o) = .ok () (s', o.add s.channel
        ((if (m.extend t).settled = false ∧ r.autoAccept = true then
          [.disposition (Link.acceptance m.deliveryId)] else []) ++ grants)) ∧
      (∀ p ∈ grants, IsGrant r.endpoint.handle p) ∧
      s'.face = s.face.withReceiver name
        { r with
          inProgress := none, received := r.received ++ [{ m.extend t with settled }] } := by
  obtain ⟨w, hlink, rfl⟩ := receivers_eq_some_iff.1 hreceiver
  obtain ⟨r', settled, outputs, htaken, houtputs, hstill⟩ :=
    Link.Receiver.onTransfer_last (r := w) hstate hpart hkept hsize hmore
  obtain ⟨s₁, s', flows, heq, hflows, hface⟩ := onTransfer_eq hname hlink htaken o
  rw [hstill] at hface
  rw [List.map_append, List.append_assoc] at heq
  have haccept : (if (m.extend t).settled = false ∧ w.autoAccept = true then
        [Link.Output.disposition (Link.acceptance m.deliveryId)] else []).map (frameOf s₁) =
      if (m.extend t).settled = false ∧ w.autoAccept = true then
        [.disposition (Link.acceptance m.deliveryId)] else [] := by
    split_ifs <;> rfl
  rw [haccept] at heq
  refine ⟨s', settled, _, heq, fun p hp => ?_, hface⟩
  rcases List.mem_append.1 hp with hp | hp
  · exact isGrant_of_isGrants houtputs s₁ p hp
  · exact hflows p hp

end

/-! ## Acceptances -/

/-- What an acceptance does to a link. -/
def acceptAt (deliveryId : UInt32) : Link → Link
  | .sender v => .sender (v.accept deliveryId)
  | .receiver r => .receiver r

theorem onDisposition_acceptance_link (deliveryId : UInt32) (l : Link) :
    l.onDisposition (Link.acceptance deliveryId) = (acceptAt deliveryId l, []) := by
  cases l with
  | sender v =>
    change (Link.sender (v.onDisposition (Link.acceptance deliveryId)).1,
      (v.onDisposition (Link.acceptance deliveryId)).2) = _
    rw [Link.Sender.onDisposition_acceptance]
    rfl
  | receiver r =>
    change (Link.receiver (r.onDisposition (Link.acceptance deliveryId)), []) = _
    rw [Link.Receiver.onDisposition_acceptance]
    rfl

theorem iterate_acceptAt (deliveryId : UInt32) (k : Nat) (l : Link) :
    (acceptAt deliveryId)^[k + 1] l = acceptAt deliveryId l := by
  have htwice : acceptAt deliveryId (acceptAt deliveryId l) = acceptAt deliveryId l := by
    cases l with
    | sender v => exact congrArg Link.sender (Link.Sender.accept_accept deliveryId v)
    | receiver r => rfl
  induction k with
  | zero => rfl
  | succ k ih => rw [Function.iterate_succ_apply', ih, htwice]

/-- One visit with an acceptance does what any number of them do. -/
theorem get?_visit_acceptance (deliveryId : UInt32) (names : List String)
    (links : Table String Link) (name : String) :
    (visit (fun l => l.onDisposition (Link.acceptance deliveryId)) names links).1.get? name =
      if name ∈ names then (links.get? name).map (acceptAt deliveryId) else links.get? name := by
  have hreact : ∀ l : Link, (l.onDisposition (Link.acceptance deliveryId)).1 =
      acceptAt deliveryId l := fun l => by rw [onDisposition_acceptance_link]
  have hvisit :=
    get?_visit (fun l => l.onDisposition (Link.acceptance deliveryId)) names links name
  simp only [hreact] at hvisit
  rw [hvisit]
  by_cases hmem : name ∈ names
  · obtain ⟨k, hk⟩ : ∃ k, names.count name = k + 1 :=
      Nat.exists_eq_succ_of_ne_zero (Nat.ne_of_gt (List.count_pos_iff.2 hmem))
    rw [if_pos hmem, hk]
    exact congrArg (Option.map · _) (funext (iterate_acceptAt deliveryId k))
  · rw [if_neg hmem, List.count_eq_zero.2 hmem, Function.iterate_zero, Option.map_id]
    rfl

/-- The links behind the peer's handles hear of an acceptance, and answer nothing. -/
theorem onDisposition_acceptance (deliveryId : UInt32) (s : Session) (o : Outbox) :
    ∃ s', onDisposition (Link.acceptance deliveryId) (s, o) = .ok () (s', o) ∧
      s'.face =
        { s.face with
          senders := fun name =>
            if name ∈ s.inputHandles.values then
              (s.face.senders name).map (Link.Sender.accept deliveryId)
            else s.face.senders name } := by
  let names := s.inputHandles.values
  let visited := visit (fun l => l.onDisposition (Link.acceptance deliveryId)) names s.links
  have houtputs : visited.2 = [] :=
    visit_outputs (fun l => by rw [onDisposition_acceptance_link]) _ _
  have hget : ∀ name, visited.1.get? name =
      if name ∈ names then (s.links.get? name).map (acceptAt deliveryId)
      else s.links.get? name := get?_visit_acceptance deliveryId names s.links
  refine ⟨{ s with links := visited.1 }, ?_, ?_⟩
  · unfold onDisposition
    rw [Acting.current_bind]
    change commit ({ s with links := visited.1 }, visited.2) (s, o) = _
    rw [commit_eq, houtputs, List.map_nil, Outbox.add_nil]
  · have hsenders : ∀ name, ((visited.1.get? name).bind fun l => l.still.sender?) =
        if name ∈ names then (s.face.senders name).map (Link.Sender.accept deliveryId)
        else s.face.senders name := by
      intro name
      rw [hget]
      split_ifs
      · change _ = ((s.links.get? name).bind fun l => l.still.sender?).map _
        rcases s.links.get? name with _ | v | r
        · rfl
        · exact congrArg some (Link.Sender.still_accept deliveryId v)
        · rfl
      · rfl
    have hreceivers : ∀ name, ((visited.1.get? name).bind fun l => l.still.receiver?) =
        s.face.receivers name := by
      intro name
      rw [hget]
      change _ = (s.links.get? name).bind fun l => l.still.receiver?
      split_ifs
      · rcases s.links.get? name with _ | v | r <;> rfl
      · rfl
    unfold face
    congr 1
    · exact funext hsenders
    · exact funext hreceivers

/-! ## Local operations -/

/-- A grant of credit goes out as a flow of the link, or is refused. -/
theorem grantCredit_spec (name : String) (credit : UInt32) (s : Session) (o : Outbox) :
    (∃ halt, grantCredit name credit (s, o) = .error halt (s, o)) ∨
      ∃ r s' ps, s.face.receivers name = some r ∧
        grantCredit name credit (s, o) = .ok () (s', o.add s.channel ps) ∧
        (∀ p ∈ ps, IsGrant r.endpoint.handle p) ∧ s'.face = s.face := by
  unfold grantCredit
  rw [Acting.current_bind]
  cases hreceiver : s.receiver name with
  | error f => exact Or.inl ⟨_, rfl⟩
  | ok r =>
    have hlink := links_of_receiver hreceiver
    rw [Action.ofExcept_ok_bind]
    cases hgrant : r.grant credit with
    | error f => exact Or.inl ⟨_, rfl⟩
    | ok granted =>
      obtain ⟨r', outputs⟩ := granted
      obtain ⟨hstill, houtputs⟩ := Link.Receiver.grant_spec hgrant
      rw [Action.ofExcept_ok_bind]
      refine Or.inr ⟨r.still, s.withLink name (.receiver r'), _,
        receivers_eq_some_iff.2 ⟨r, hlink, rfl⟩, commit_eq _ s o,
        isGrant_of_isGrants houtputs _, face_withLink_still hlink (congrArg Link.receiver hstill)⟩

/-- The oldest message of a receiving end is given away. -/
theorem receive_spec {name : String} {s s' : Session} {message : Option Link.Message}
    (h : receive name s = .ok (message, s')) :
    ∃ r, s.face.receivers name = some r ∧ message = r.received.head? ∧
      s'.face = s.face.withReceiver name { r with received := r.received.tail } := by
  unfold receive at h
  cases hr : s.receiver name with
  | error f =>
    rw [hr] at h
    cases h
  | ok r =>
    rw [hr] at h
    cases h
    have hlink := links_of_receiver hr
    exact ⟨r.still, receivers_eq_some_iff.2 ⟨r, hlink, rfl⟩, rfl, face_withLink_receiver hlink _⟩

/-- The outcome of a delivery of a sending end is given away. -/
theorem collectOutcome_spec {name : String} {deliveryId : UInt32} {s s' : Session}
    {outcome : Option Link.Outcome} (h : collectOutcome name deliveryId s = .ok (outcome, s')) :
    ∃ v, s.face.senders name = some v ∧ outcome = v.outcomes.get? deliveryId ∧
      s'.face = s.face.withSender name { v with outcomes := v.outcomes.erase deliveryId } := by
  unfold collectOutcome at h
  cases hv : s.sender name with
  | error f =>
    rw [hv] at h
    cases h
  | ok v =>
    rw [hv] at h
    cases h
    have hlink := links_of_sender hv
    exact ⟨v.still, senders_eq_some_iff.2 ⟨v, hlink, rfl⟩, rfl, face_withLink_sender hlink _⟩

/-- Timers do nothing at links without a send timeout. -/
theorem face_evaluate {s : Session}
    (h : ∀ name v, s.face.senders name = some v → v.sendTimeout = none) (now : Nat) :
    (s.evaluate now).face = s.face := by
  refine face_congr rfl rfl fun name => ?_
  change ((s.links.mapValues (Link.evaluate now)).get? name).map Link.still = _
  rw [Table.get?_mapValues]
  cases hl : s.links.get? name with
  | none => rfl
  | some l =>
    cases l with
    | receiver r => rfl
    | sender v =>
      have htimeout : v.sendTimeout = none := h name v.still (senders_eq_some_iff.2 ⟨v, hl, rfl⟩)
      change some (Link.sender (v.evaluate now)).still = _
      rw [Link.Sender.evaluate_of_sendTimeout htimeout]
      rfl

end Amqp.Session
