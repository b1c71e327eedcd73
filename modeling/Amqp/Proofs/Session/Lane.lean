import Amqp.Proofs.Session.Relaying

/-!
# One direction of delivery

`Lane base x y` is the invariant of the deliveries from the sending links of a peer `x` to the
receiving links of a peer `y`, where each peer is a session with the frames that wait in its outbox.
For every link it says which deliveries are still on their way (`Conveys`): what was sent is what
was received, what is queued, and what the transfers in the outbox assemble to; and a delivery that
waits for its outcome is on its way, or its acceptance is.

The invariant survives a message sent (`Lane.send`), a transfer taken by the other side
(`Lane.take`), a message given away (`Lane.receive`), an acceptance brought back (`Lane.accept`), an
outcome given away (`Lane.collect`) and whatever leaves the deliveries alone (`Lane.congr`).
-/

namespace Amqp

namespace Session

/-! ## Peers -/

/-- What was recorded under a key. -/
def recordedAs {κ α : Type} [DecidableEq κ] (key : κ) (entries : List (κ × α)) : List α :=
  entries.filterMap fun e => if e.1 = key then some e.2 else none

section

variable {κ α : Type} [DecidableEq κ]

theorem recordedAs_append (key : κ) (xs ys : List (κ × α)) :
    recordedAs key (xs ++ ys) = recordedAs key xs ++ recordedAs key ys :=
  List.filterMap_append

theorem recordedAs_self (key : κ) (a : α) : recordedAs key [(key, a)] = [a] := by
  simp [recordedAs]

theorem recordedAs_of_ne {key k : κ} (h : k ≠ key) (a : α) : recordedAs k [(key, a)] = [] := by
  simp [recordedAs, Ne.symm h]

theorem mem_of_mem_recordedAs {key : κ} {entries : List (κ × α)} {a : α}
    (h : a ∈ recordedAs key entries) : (key, a) ∈ entries := by
  obtain ⟨e, he, heq⟩ := List.mem_filterMap.1 h
  split_ifs at heq with hkey
  cases heq
  rw [← hkey]
  exact he

end

/-- The ids of the deliveries that frames settle. -/
def acceptedIn (frames : List (UInt16 × Performative)) : List UInt32 :=
  frames.filterMap fun f =>
    match f.2 with
    | .disposition d => some d.first
    | _ => none

theorem acceptedIn_append (xs ys : List (UInt16 × Performative)) :
    acceptedIn (xs ++ ys) = acceptedIn xs ++ acceptedIn ys :=
  List.filterMap_append

theorem acceptedIn_subset_add (channel : UInt16) (ps : List Performative) (o : Outbox) :
    acceptedIn o.frames ⊆ acceptedIn (o.add channel ps).frames := by
  intro id hid
  change id ∈ acceptedIn (o.frames ++ _)
  rw [acceptedIn_append]
  exact List.mem_append_left _ hid

theorem transfersOf_replies {handle : UInt32} {ps : List Performative}
    (h : ∀ p ∈ ps, IsReply handle p) (channel : UInt16) :
    transfersOf (ps.map (channel, ·)) = [] := by
  induction ps with
  | nil => rfl
  | cons p ps ih =>
    obtain ⟨hp, hps⟩ := List.forall_mem_cons.1 h
    rcases hp with ⟨w, rfl, -⟩ | ⟨id, rfl⟩ <;> exact ih hps

/-- A session with the frames that wait to be relayed, and the record of what its application has
sent, received and learned: deliveries, messages and outcomes, each under the name of the link.
`emitted` counts the transfers that went out. -/
structure Peer where
  session : Session
  outbox : Outbox
  emitted : Nat := 0
  sent : List (String × Link.Delivery) := []
  received : List (String × UInt32 × Bytes) := []
  collected : List ((String × UInt32) × Link.Outcome) := []

namespace Peer

/-- The peer with another session and outbox, after an action of the session. -/
def become (s : Session) (o : Outbox) (x : Peer) : Peer := { x with session := s, outbox := o }

/-- The peer with other frames in its outbox. -/
def withFrames (frames : List (UInt16 × Performative)) (x : Peer) : Peer :=
  { x with outbox := { x.outbox with frames } }

/-- The parts of deliveries on a handle that wait in the outbox. -/
def transfersOn (handle : UInt32) (x : Peer) : List Transfer :=
  (transfersOf x.outbox.frames).filter fun t => t.handle = handle

/-- The outcomes of a delivery of a sending end: those that were given away, and then the one that
waits to be. -/
def outcomesOf (name : String) (v : Link.Sender) (id : UInt32) (x : Peer) : List Link.Outcome :=
  recordedAs (name, id) x.collected ++ (v.outcomes.get? id).toList

end Peer

/-! ## Lanes -/

/-- Whether a sending and a receiving end are attached to each other: each session finds the other
end's handle under the name of the link, and the sender has learned the size limit. -/
structure IsPair (f g : Face) (name : String) (v : Link.Sender) (r : Link.Receiver) : Prop where
  state : r.endpoint.state = .attached
  sends : g.inputHandles.get? v.endpoint.handle = some name
  grants : f.inputHandles.get? r.endpoint.handle = some name
  limit : v.endpoint.remoteMaxMessageSize = r.endpoint.maxMessageSize
  sendTimeout : v.sendTimeout = none

theorem IsPair.congr {f f' g g' : Face} {name : String} {v v' : Link.Sender} {r r' : Link.Receiver}
    (h : IsPair f g name v r) (hf : f'.inputHandles = f.inputHandles)
    (hg : g'.inputHandles = g.inputHandles) (hv : v'.endpoint = v.endpoint)
    (htimeout : v'.sendTimeout = v.sendTimeout) (hr : r'.endpoint = r.endpoint) :
    IsPair f' g' name v' r' where
  state := by rw [hr, h.state]
  sends := by rw [hg, hv, h.sends]
  grants := by rw [hf, hr, h.grants]
  limit := by rw [hv, hr, h.limit]
  sendTimeout := by rw [htimeout, h.sendTimeout]

/-- What holds of the deliveries of one link, with those on their way.  A delivery that nobody waits
for has no outcome; one that is to be accepted has none as long as it or its acceptance is on the
way, and then exactly one. -/
structure Conveys (x y : Peer) (name : String) (v : Link.Sender) (r : Link.Receiver)
    (coming : List Link.Delivery) : Prop where
  assembles :
    Link.Assembles r.endpoint.maxMessageSize r.inProgress (x.transfersOn v.endpoint.handle) coming
  content : (recordedAs name x.sent).map Link.Delivery.content =
    recordedAs name y.received ++ r.received.map Link.Message.content ++
      coming.map Link.Delivery.content
  quiet : ∀ id, (∀ d ∈ recordedAs name x.sent, d.id = id → d.settled = true) →
    v.unsettled.contains id = false ∧ x.outcomesOf name v id = []
  accepts : r.autoAccept = true → ∀ d ∈ recordedAs name x.sent, d.settled = false →
    (v.unsettled.contains d.id = true ∧ x.outcomesOf name v d.id = [] ∧
      (d ∈ coming ∨ d.id ∈ acceptedIn y.outbox.frames)) ∨
    (v.unsettled.contains d.id = false ∧
      x.outcomesOf name v d.id = [.settled (some .accepted)])

/-- Deliveries advance on their way when the receiving end takes what comes next, as long as none of
them is lost and what is to be accepted is. -/
theorem Conveys.advance {x x' y y' : Peer} {name : String} {v : Link.Sender}
    {r r' : Link.Receiver} {coming coming' : List Link.Delivery} (h : Conveys x y name v r coming)
    (hassembles : Link.Assembles r'.endpoint.maxMessageSize r'.inProgress
      (x'.transfersOn v.endpoint.handle) coming')
    (hsent : recordedAs name x'.sent = recordedAs name x.sent)
    (hcollected : ∀ id, recordedAs (name, id) x'.collected = recordedAs (name, id) x.collected)
    (hcontent : recordedAs name y'.received ++ r'.received.map Link.Message.content ++
        coming'.map Link.Delivery.content =
      recordedAs name y.received ++ r.received.map Link.Message.content ++
        coming.map Link.Delivery.content)
    (hauto : r'.autoAccept = r.autoAccept)
    (hway : ∀ d : Link.Delivery, d.settled = false → r.autoAccept = true →
      d ∈ coming ∨ d.id ∈ acceptedIn y.outbox.frames →
      d ∈ coming' ∨ d.id ∈ acceptedIn y'.outbox.frames) : Conveys x' y' name v r' coming' := by
  have houtcomes : ∀ id, x'.outcomesOf name v id = x.outcomesOf name v id := by
    intro id
    unfold Peer.outcomesOf
    rw [hcollected]
  refine ⟨hassembles, ?_, ?_, ?_⟩
  · rw [hsent, hcontent]
    exact h.content
  · intro id hid
    rw [hsent] at hid
    rw [houtcomes]
    exact h.quiet id hid
  · intro haccept d hd hunsettled
    rw [hsent] at hd
    rw [hauto] at haccept
    rw [houtcomes]
    rcases h.accepts haccept d hd hunsettled with ⟨hwaits, hnone, hd⟩ | hdone
    · exact Or.inl ⟨hwaits, hnone, hway d hunsettled haccept hd⟩
    · exact Or.inr hdone

theorem Conveys.congr {x x' y y' : Peer} {name : String} {v : Link.Sender} {r : Link.Receiver}
    {coming : List Link.Delivery} (h : Conveys x y name v r coming)
    (htransfers : x'.transfersOn v.endpoint.handle = x.transfersOn v.endpoint.handle)
    (hsent : recordedAs name x'.sent = recordedAs name x.sent)
    (hreceived : recordedAs name y'.received = recordedAs name y.received)
    (hcollected : ∀ id, recordedAs (name, id) x'.collected = recordedAs (name, id) x.collected)
    (haccepted : acceptedIn y.outbox.frames ⊆ acceptedIn y'.outbox.frames) :
    Conveys x' y' name v r coming := by
  refine h.advance ?_ hsent hcollected (by rw [hreceived]) rfl fun d _ _ => ?_
  · rw [htransfers]
    exact h.assembles
  · exact Or.imp_right fun hid => haccepted hid

/-- A delivery that is sent is on its way, behind those that are. -/
theorem Conveys.send {x x' y : Peer} {name : String} {v : Link.Sender} {r : Link.Receiver}
    {coming : List Link.Delivery} {d : Link.Delivery} {parts : List Transfer}
    (h : Conveys x y name v r coming) (hnew : ∀ e ∈ recordedAs name x.sent, e.id ≠ d.id)
    (hparts : Link.Assembles r.endpoint.maxMessageSize none parts [d])
    (htransfers : x'.transfersOn v.endpoint.handle = x.transfersOn v.endpoint.handle ++ parts)
    (hsent : recordedAs name x'.sent = recordedAs name x.sent ++ [d])
    (hcollected : x'.collected = x.collected) (pending : Link.Pending) :
    Conveys x' y name (v.expect d.id d.settled pending) r (coming ++ [d]) := by
  have houtcomes : ∀ id, x'.outcomesOf name (v.expect d.id d.settled pending) id =
      x.outcomesOf name v id := by
    intro id
    unfold Peer.outcomesOf
    rw [hcollected, Link.Sender.outcomes_expect]
  refine ⟨?_, ?_, ?_, ?_⟩
  · rw [Link.Sender.endpoint_expect, htransfers]
    exact h.assembles.append hparts
  · rw [hsent, List.map_append, h.content, List.map_append, List.append_assoc _ (coming.map _)]
  · intro id hid
    rw [hsent] at hid
    obtain ⟨hwaits, hnone⟩ := h.quiet id fun e he => hid e (List.mem_append_left _ he)
    rw [houtcomes, Link.Sender.contains_expect, hwaits]
    refine ⟨?_, hnone⟩
    cases hsettled : d.settled with
    | true => rfl
    | false =>
      have hne : id ≠ d.id := by
        intro heq
        have hd := hid d (List.mem_append_right _ (List.mem_singleton_self d)) heq.symm
        rw [hsettled] at hd
        cases hd
      simp [hne]
  · intro hauto e he hunsettled
    rw [hsent] at he
    rw [houtcomes, Link.Sender.contains_expect]
    rcases List.mem_append.1 he with he | he
    · have hne : e.id ≠ d.id := hnew e he
      rw [decide_eq_false hne, Bool.and_false, Bool.or_false]
      rcases h.accepts hauto e he hunsettled with ⟨hwaits, hnone, hway⟩ | hdone
      · exact Or.inl ⟨hwaits, hnone, hway.imp_left (List.mem_append_left _)⟩
      · exact Or.inr hdone
    · rw [List.mem_singleton] at he
      subst he
      -- No delivery had this id, so no outcome is known for it.
      have hnone := (h.quiet e.id fun e' he' heq => absurd heq (hnew e' he')).2
      refine Or.inl ⟨?_, hnone, Or.inl (List.mem_append_right _ (List.mem_singleton_self e))⟩
      rw [hunsettled]
      simp

/-- An acceptance that is brought back concludes the delivery with its id, if it is waited for. -/
theorem Conveys.accept {x x' y y' : Peer} {name : String} {v : Link.Sender} {r : Link.Receiver}
    {coming : List Link.Delivery} {id : UInt32} (h : Conveys x y name v r coming)
    (haccepted : acceptedIn y.outbox.frames = id :: acceptedIn y'.outbox.frames)
    (hframes : x'.outbox.frames = x.outbox.frames) (hsent : x'.sent = x.sent)
    (hcollected : x'.collected = x.collected) (hreceived : y'.received = y.received) :
    Conveys x' y' name (v.accept id) r coming := by
  have houtcomes : ∀ i, ¬(i = id ∧ v.unsettled.contains i = true) →
      x'.outcomesOf name (v.accept id) i = x.outcomesOf name v i := by
    intro i hi
    unfold Peer.outcomesOf
    rw [hcollected, Link.Sender.outcomes_accept, if_neg hi]
  refine ⟨?_, ?_, ?_, ?_⟩
  · unfold Peer.transfersOn
    rw [hframes, Link.Sender.endpoint_accept]
    exact h.assembles
  · rw [hsent, hreceived]
    exact h.content
  · intro i hi
    rw [hsent] at hi
    obtain ⟨hwaits, hnone⟩ := h.quiet i hi
    rw [houtcomes i (by simp [hwaits]), Link.Sender.contains_accept, hwaits]
    exact ⟨rfl, hnone⟩
  · intro hauto d hd hunsettled
    rw [hsent] at hd
    rw [Link.Sender.contains_accept]
    rcases h.accepts hauto d hd hunsettled with ⟨hwaits, hnone, hway⟩ | ⟨hwaits, hdone⟩
    · by_cases hid : d.id = id
      · refine Or.inr ⟨by simp [hid], ?_⟩
        -- Nothing was known of the delivery, so this is its only outcome.
        have hcollected' : recordedAs (name, d.id) x.collected = [] :=
          (List.append_eq_nil_iff.1 hnone).1
        unfold Peer.outcomesOf
        rw [hcollected, hcollected', Link.Sender.outcomes_accept, if_pos ⟨hid, hwaits⟩]
        rfl
      · rw [houtcomes d.id (fun hd => hid hd.1), hwaits]
        refine Or.inl ⟨by simp [hid], hnone, hway.imp_right fun hin => ?_⟩
        rw [haccepted] at hin
        exact (List.mem_cons.1 hin).resolve_left hid
    · rw [houtcomes d.id (by simp [hwaits]), hwaits]
      exact Or.inr ⟨rfl, hdone⟩

/-- An outcome that is given away is still the outcome of its delivery. -/
theorem Conveys.collect {x x' y : Peer} {name : String} {v : Link.Sender} {r : Link.Receiver}
    {coming : List Link.Delivery} {id : UInt32} (h : Conveys x y name v r coming)
    (hframes : x'.outbox.frames = x.outbox.frames) (hsent : x'.sent = x.sent)
    (hcollected : x'.collected =
      x.collected ++ (v.outcomes.get? id).toList.map fun o => ((name, id), o)) :
    Conveys x' y name { v with outcomes := v.outcomes.erase id } r coming := by
  have houtcomes : ∀ i, x'.outcomesOf name { v with outcomes := v.outcomes.erase id } i =
      x.outcomesOf name v i := by
    intro i
    unfold Peer.outcomesOf
    rw [hcollected, recordedAs_append]
    dsimp only
    rw [Table.get?_erase]
    by_cases hi : i = id
    · subst hi
      rw [if_pos rfl]
      cases v.outcomes.get? i with
      | none => simp [recordedAs]
      | some o => simp [recordedAs]
    · rw [if_neg hi]
      cases v.outcomes.get? id with
      | none => simp [recordedAs]
      | some o => simp [recordedAs, Ne.symm hi]
  refine ⟨?_, ?_, ?_, ?_⟩
  · unfold Peer.transfersOn
    rw [hframes]
    exact h.assembles
  · rw [hsent]
    exact h.content
  · intro i hi
    rw [hsent] at hi
    rw [houtcomes]
    exact h.quiet i hi
  · intro hauto d hd hunsettled
    rw [hsent] at hd
    rw [houtcomes]
    exact h.accepts hauto d hd hunsettled

/-- The invariant of the deliveries from `x` to `y`.  Transfer ids are counted from `base`. -/
structure Lane (base : UInt32) (x y : Peer) : Prop where
  next : x.session.face.nextOutgoingId = base + UInt32.ofNat x.emitted
  known : ∀ e ∈ x.sent, ∃ k < x.emitted, e.2.id = base + UInt32.ofNat k
  nodup : (x.sent.map fun e => e.2.id).Nodup
  sound : ∀ f ∈ x.outbox.frames, IsSound x.session.face f.2
  sender : ∀ name r, y.session.face.receivers name = some r →
    ∃ v, x.session.face.senders name = some v
  receiver : ∀ name v, x.session.face.senders name = some v →
    ∃ r, y.session.face.receivers name = some r ∧
      IsPair x.session.face y.session.face name v r ∧ ∃ coming, Conveys x y name v r coming

/-- Whether a peer has the same deliveries to send and to conclude. -/
structure SameOutward (x x' : Peer) : Prop where
  senders : x'.session.face.senders = x.session.face.senders
  inputHandles : x'.session.face.inputHandles = x.session.face.inputHandles
  next : x'.session.face.nextOutgoingId = x.session.face.nextOutgoingId
  emitted : x'.emitted = x.emitted
  sent : x'.sent = x.sent
  collected : x'.collected = x.collected
  transfers : transfersOf x'.outbox.frames = transfersOf x.outbox.frames
  sound : ∀ f ∈ x'.outbox.frames, IsSound x'.session.face f.2

/-- Whether a peer has the same deliveries received, and has taken back no acceptance. -/
structure SameInward (y y' : Peer) : Prop where
  receivers : y'.session.face.receivers = y.session.face.receivers
  inputHandles : y'.session.face.inputHandles = y.session.face.inputHandles
  received : y'.received = y.received
  accepted : acceptedIn y.outbox.frames ⊆ acceptedIn y'.outbox.frames

theorem SameInward.refl (y : Peer) : SameInward y y := ⟨rfl, rfl, rfl, List.Subset.refl _⟩

namespace Lane

variable {base : UInt32} {x x' y y' : Peer}

theorem sameOutward (h : Lane base x y) : SameOutward x x :=
  ⟨rfl, rfl, rfl, rfl, rfl, rfl, rfl, h.sound⟩

/-- A change of sending ends that keeps their endpoints, and the invariant of each link. -/
theorem withSenders (h : Lane base x y)
    (hnext : x'.session.face.nextOutgoingId = x.session.face.nextOutgoingId)
    (hhandles : x'.session.face.inputHandles = x.session.face.inputHandles)
    (hemitted : x'.emitted = x.emitted) (hsent : x'.sent = x.sent)
    (hsound : ∀ f ∈ x'.outbox.frames, IsSound x'.session.face f.2)
    (hreceivers : y'.session.face.receivers = y.session.face.receivers)
    (hhandles' : y'.session.face.inputHandles = y.session.face.inputHandles)
    (hback : ∀ name v, x.session.face.senders name = some v →
      ∃ v', x'.session.face.senders name = some v')
    (hsenders : ∀ name v', x'.session.face.senders name = some v' →
      ∃ v, x.session.face.senders name = some v ∧ v'.endpoint = v.endpoint ∧
        v'.sendTimeout = v.sendTimeout ∧
        ∀ r coming, IsPair x.session.face y.session.face name v r → Conveys x y name v r coming →
          Conveys x' y' name v' r coming) : Lane base x' y' where
  next := by rw [hnext, hemitted, h.next]
  known := by rw [hsent, hemitted]; exact h.known
  nodup := by rw [hsent]; exact h.nodup
  sound := hsound
  sender := by
    intro name r hr
    rw [hreceivers] at hr
    obtain ⟨v, hv⟩ := h.sender name r hr
    exact hback name v hv
  receiver := by
    intro name v' hv'
    obtain ⟨v, hv, hendpoint, htimeout, hkept⟩ := hsenders name v' hv'
    obtain ⟨r, hr, hpair, coming, hconveys⟩ := h.receiver name v hv
    exact ⟨r, hreceivers ▸ hr, hpair.congr hhandles hhandles' hendpoint htimeout rfl, coming,
      hkept r coming hpair hconveys⟩

theorem congr (h : Lane base x y) (hx : SameOutward x x') (hy : SameInward y y') :
    Lane base x' y' := by
  refine h.withSenders hx.next hx.inputHandles hx.emitted hx.sent hx.sound hy.receivers
    hy.inputHandles (fun name v hv => ⟨v, hx.senders ▸ hv⟩) fun name v hv => ?_
  rw [hx.senders] at hv
  refine ⟨v, hv, rfl, rfl, fun r coming _ hconveys => ?_⟩
  refine hconveys.congr ?_ (by rw [hx.sent]) (by rw [hy.received])
    (fun _ => by rw [hx.collected]) hy.accepted
  unfold Peer.transfersOn
  rw [hx.transfers]

/-- Links have different handles, since the peer finds different names behind them. -/
theorem handle_ne {name n : String} {v w : Link.Sender} (h : Lane base x y)
    (hv : x.session.face.senders name = some v) (hw : x.session.face.senders n = some w)
    (hn : n ≠ name) : w.endpoint.handle ≠ v.endpoint.handle := by
  obtain ⟨_, -, hpair, -⟩ := h.receiver name v hv
  obtain ⟨_, -, hpair', -⟩ := h.receiver n w hw
  intro heq
  have hsends := hpair'.sends
  rw [heq, hpair.sends] at hsends
  exact hn (Option.some.inj hsends).symm

/-- The id of the next delivery is new as long as the transfers are less than the ids. -/
theorem id_ne_next (h : Lane base x y) (hcount : x.emitted < UInt32.size) :
    ∀ e ∈ x.sent, e.2.id ≠ x.session.nextOutgoingId := by
  intro e he heq
  obtain ⟨k, hk, hid⟩ := h.known e he
  have hnext : x.session.nextOutgoingId = base + UInt32.ofNat x.emitted := h.next
  rw [hid, hnext] at heq
  have hof : UInt32.ofNat k = UInt32.ofNat x.emitted := (UInt32.add_right_inj base).1 heq
  have hnat := congrArg UInt32.toNat hof
  rw [UInt32.toNat_ofNat_of_lt' (Nat.lt_trans hk hcount), UInt32.toNat_ofNat_of_lt' hcount] at hnat
  omega

/-- The frames of a delivery join those of its own link and no other. -/
theorem transfersOn_stamp {channel : UInt16} {handle id : UInt32} {tag : UInt64} {payload : Bytes}
    {settled : Bool} {maxFrameSize : UInt32} {ts : List Transfer}
    (hsplit : (Link.Sender.drafted handle tag payload settled).split maxFrameSize = .ok ts)
    (hframes : x'.outbox.frames =
      x.outbox.frames ++ ((stamp id ts).map Performative.transfer).map (channel, ·))
    (handle' : UInt32) :
    x'.transfersOn handle' =
      x.transfersOn handle' ++ if handle' = handle then stamp id ts else [] := by
  have hparts : ∀ u ∈ stamp id ts, u.handle = handle := fun u hu => (of_mem_stamp hsplit hu).1
  unfold Peer.transfersOn
  rw [hframes, transfersOf_append, transfersOf_transfers, List.filter_append]
  congr 1
  split_ifs with hhandle
  · exact List.filter_eq_self.2 fun u hu => decide_eq_true ((hparts u hu).trans hhandle.symm)
  · exact List.filter_eq_nil_iff.2 fun u hu hsame =>
      hhandle ((of_decide_eq_true hsame).symm.trans (hparts u hu))

section

variable {channel : UInt16} {name : String} {v : Link.Sender} {d : Link.Delivery} {tag : UInt64}
  {maxFrameSize : UInt32} {ts : List Transfer}

/-- The ids that were given stay below the count of transfers, as every delivery has one. -/
theorem known_send (h : Lane base x y) (hid : d.id = x.session.nextOutgoingId)
    (hsplit : (Link.Sender.drafted v.endpoint.handle tag d.payload d.settled).split maxFrameSize =
      .ok ts) (hemitted : x'.emitted = x.emitted + ts.length)
    (hsent : x'.sent = x.sent ++ [(name, d)]) :
    ∀ e ∈ x'.sent, ∃ k < x'.emitted, e.2.id = base + UInt32.ofNat k := by
  have hlength : 0 < ts.length := by
    obtain ⟨_, -, -, ⟨-, rfl⟩ | ⟨_, -, -, -, rfl⟩⟩ := Transfer.split_cases hsplit
    · exact Nat.one_pos
    · exact Nat.succ_pos _
  rw [hsent, hemitted]
  intro e he
  rcases List.mem_append.1 he with he | he
  · obtain ⟨k, hk, hknown⟩ := h.known e he
    exact ⟨k, Nat.lt_of_lt_of_le hk (Nat.le_add_right _ _), hknown⟩
  · obtain rfl := List.mem_singleton.1 he
    exact ⟨x.emitted, Nat.lt_add_of_pos_right hlength, hid.trans h.next⟩

theorem nodup_send (h : Lane base x y) (hcount : x.emitted < UInt32.size)
    (hid : d.id = x.session.nextOutgoingId) (hsent : x'.sent = x.sent ++ [(name, d)]) :
    (x'.sent.map fun e => e.2.id).Nodup := by
  rw [hsent, List.map_append, List.nodup_append]
  refine ⟨h.nodup, by simp, ?_⟩
  intro i hi j hj
  obtain ⟨e, he, rfl⟩ := List.mem_map.1 hi
  obtain rfl := List.mem_singleton.1 hj
  exact fun heq => h.id_ne_next hcount e he (heq.trans hid)

theorem sound_send (h : Lane base x y) (hv : x.session.face.senders name = some v)
    (hsplit : (Link.Sender.drafted v.endpoint.handle tag d.payload d.settled).split maxFrameSize =
      .ok ts) (hsame : SameHandles x.session.face x'.session.face)
    (hframes : x'.outbox.frames = x.outbox.frames ++
      ((stamp d.id ts).map Performative.transfer).map (channel, ·)) :
    ∀ f ∈ x'.outbox.frames, IsSound x'.session.face f.2 := by
  rw [hframes]
  intro f hf
  rcases List.mem_append.1 hf with hf | hf
  · exact (h.sound f hf).mono hsame
  · obtain ⟨p, hp, rfl⟩ := List.mem_map.1 hf
    obtain ⟨u, hu, rfl⟩ := List.mem_map.1 hp
    obtain ⟨hhandle, hstate, hsize⟩ := of_mem_stamp hsplit hu
    obtain ⟨w, hw, hwv⟩ := exists_of_map_eq (hsame.senders name) hv
    exact ⟨hstate, hsize, name, w, hw, hwv.trans hhandle.symm⟩

/-- A message that is sent goes out on its link, under the next delivery id. -/
theorem send {pending : Link.Pending} (h : Lane base x y) (hcount : x.emitted < UInt32.size)
    (hv : x.session.face.senders name = some v) (hid : d.id = x.session.nextOutgoingId)
    (hlimit : Link.Within v.endpoint.remoteMaxMessageSize d.payload.length)
    (hsplit : (Link.Sender.drafted v.endpoint.handle tag d.payload d.settled).split maxFrameSize =
      .ok ts)
    (hface : x'.session.face =
      { x.session.face with
        nextOutgoingId := x.session.nextOutgoingId + UInt32.ofNat ts.length }.withSender name
          (v.expect d.id d.settled pending))
    (hframes : x'.outbox.frames = x.outbox.frames ++
      ((stamp d.id ts).map Performative.transfer).map (channel, ·))
    (hemitted : x'.emitted = x.emitted + ts.length) (hsent : x'.sent = x.sent ++ [(name, d)])
    (hcollected : x'.collected = x.collected) : Lane base x' y := by
  have hnext : x.session.nextOutgoingId = base + UInt32.ofNat x.emitted := h.next
  have htransfers := transfersOn_stamp hsplit hframes
  have hsenders : x'.session.face.senders =
      Function.update x.session.face.senders name (some (v.expect d.id d.settled pending)) := by
    rw [hface]
    rfl
  have hhandles : x'.session.face.inputHandles = x.session.face.inputHandles := by
    rw [hface]
    rfl
  have hsame : SameHandles x.session.face x'.session.face := by
    rw [hface]
    exact ⟨map_update hv (congrArg _ (Link.Sender.endpoint_expect _ _ _ _)), fun _ => rfl⟩
  refine ⟨?_, h.known_send hid hsplit hemitted hsent, h.nodup_send hcount hid hsent,
    h.sound_send hv hsplit hsame hframes, ?_, ?_⟩
  · rw [hface, hemitted, UInt32.ofNat_add, ← UInt32.add_assoc, ← hnext]
    rfl
  · intro n r hr
    obtain ⟨w, hw⟩ := h.sender n r hr
    obtain ⟨w', hw', -⟩ := exists_of_map_eq (hsame.senders n) hw
    exact ⟨w', hw'⟩
  · intro n w hw
    rw [hsenders] at hw
    by_cases hn : n = name
    · subst hn
      rw [Function.update_self] at hw
      obtain rfl := Option.some.inj hw
      obtain ⟨r, hr, hpair, coming, hconveys⟩ := h.receiver n v hv
      have hout : x'.transfersOn v.endpoint.handle =
          x.transfersOn v.endpoint.handle ++ stamp d.id ts := by
        rw [htransfers, if_pos rfl]
      have hparts := assembles_stamp hsplit (hpair.limit ▸ hlimit) d.id
      have hnew : ∀ e ∈ recordedAs n x.sent, e.id ≠ d.id := fun e he =>
        hid ▸ h.id_ne_next hcount (n, e) (mem_of_mem_recordedAs he)
      refine ⟨r, hr, hpair.congr hhandles rfl (by simp) (by simp) rfl, _,
        hconveys.send hnew hparts hout ?_ hcollected pending⟩
      rw [hsent, recordedAs_append, recordedAs_self]
    · rw [Function.update_of_ne hn] at hw
      obtain ⟨r, hr, hpair, coming, hconveys⟩ := h.receiver n w hw
      refine ⟨r, hr, hpair.congr hhandles rfl rfl rfl rfl, coming, hconveys.congr ?_ ?_ rfl ?_ ?_⟩
      · rw [htransfers, if_neg (h.handle_ne hv hw hn), List.append_nil]
      · rw [hsent, recordedAs_append, recordedAs_of_ne hn, List.append_nil]
      · rw [hcollected]
        exact fun _ => rfl
      · exact fun _ hin => hin

end

/-- A change of one receiving end, whose own deliveries advance. -/
theorem withReceiver {name : String} {v : Link.Sender} {r r' : Link.Receiver}
    (h : Lane base x y) (hv : x.session.face.senders name = some v)
    (hr : y.session.face.receivers name = some r)
    (hface : y'.session.face = y.session.face.withReceiver name r')
    (hendpoint : r'.endpoint = r.endpoint) (hsession : x'.session = x.session)
    (hemitted : x'.emitted = x.emitted) (hsent : x'.sent = x.sent)
    (hcollected : x'.collected = x.collected) (hframes : x'.outbox.frames ⊆ x.outbox.frames)
    (haccepted : acceptedIn y.outbox.frames ⊆ acceptedIn y'.outbox.frames)
    (hreceived : ∀ n ≠ name, recordedAs n y'.received = recordedAs n y.received)
    (htransfers : ∀ handle ≠ v.endpoint.handle, x'.transfersOn handle = x.transfersOn handle)
    {coming : List Link.Delivery} (hown : Conveys x' y' name v r' coming) : Lane base x' y' where
  next := by rw [hsession, hemitted, h.next]
  known := by rw [hsent, hemitted]; exact h.known
  nodup := by rw [hsent]; exact h.nodup
  sound := by
    rw [hsession]
    exact fun f hf => h.sound f (hframes hf)
  sender := by
    intro n w hw
    rw [hface] at hw
    rw [hsession]
    by_cases hn : n = name
    · rw [hn]
      exact ⟨v, hv⟩
    · exact h.sender n w ((Function.update_of_ne hn _ _).symm.trans hw)
  receiver := by
    intro n w hw
    rw [hsession] at hw ⊢
    rw [hface]
    obtain ⟨q, hq, hpair, onway, hconveys⟩ := h.receiver n w hw
    by_cases hn : n = name
    · subst hn
      obtain rfl := Option.some.inj (hv.symm.trans hw)
      obtain rfl := Option.some.inj (hr.symm.trans hq)
      exact ⟨r', Function.update_self _ _ _, hpair.congr rfl rfl rfl rfl hendpoint, _, hown⟩
    · refine ⟨q, (Function.update_of_ne hn _ _).trans hq, hpair.congr rfl rfl rfl rfl rfl, onway,
        hconveys.congr (htransfers _ (h.handle_ne hv hw hn)) (by rw [hsent]) (hreceived n hn) ?_
          haccepted⟩
      rw [hcollected]
      exact fun _ => rfl

/-- What a peer sends in return for a part of a delivery leaves its own deliveries alone. -/
theorem sameOutward_replies {s' : Session} {name : String} {r : Link.Receiver}
    {ps : List Performative} (hsound : ∀ f ∈ y.outbox.frames, IsSound y.session.face f.2)
    (hr : y.session.face.receivers name = some r)
    (hps : ∀ p ∈ ps, IsReply r.endpoint.handle p)
    (hsenders : s'.face.senders = y.session.face.senders)
    (hhandles : s'.face.inputHandles = y.session.face.inputHandles)
    (hnext : s'.face.nextOutgoingId = y.session.face.nextOutgoingId)
    (hsame : SameHandles y.session.face s'.face) (channel : UInt16) :
    SameOutward y (y.become s' (y.outbox.add channel ps)) := by
  refine ⟨hsenders, hhandles, hnext, rfl, rfl, rfl, ?_, ?_⟩
  · change transfersOf (y.outbox.frames ++ ps.map (channel, ·)) = _
    rw [transfersOf_append, transfersOf_replies hps, List.append_nil]
  · intro f hf
    rcases List.mem_append.1 hf with hf | hf
    · exact (hsound f hf).mono hsame
    · obtain ⟨p, hp, rfl⟩ := List.mem_map.1 hf
      exact ((hps p hp).isSound hr).mono hsame

/-- A part that the other side takes is no longer among those on its handle. -/
theorem transfersOn_withFrames {channel : UInt16} {t : Transfer}
    {rest : List (UInt16 × Performative)} (hhead : x.outbox.frames = (channel, .transfer t) :: rest)
    (handle : UInt32) :
    x.transfersOn handle =
      (if t.handle = handle then [t] else []) ++ (x.withFrames rest).transfersOn handle := by
  have hframes : transfersOf x.outbox.frames = t :: transfersOf rest := by
    rw [hhead]
    rfl
  unfold Peer.transfersOn Peer.withFrames
  rw [hframes, List.filter_cons]
  by_cases hhandle : t.handle = handle
  · rw [if_pos (decide_eq_true hhandle), if_pos hhandle]
    rfl
  · rw [if_neg fun heq => hhandle (of_decide_eq_true heq), if_neg hhandle]
    rfl

section

variable {channel : UInt16} {t : Transfer} {rest : List (UInt16 × Performative)}

/-- A part of a delivery that a receiving end takes lets the deliveries of its link advance, and
what its peer sends in return leaves the deliveries of that peer alone. -/
theorem take_of_taken {name : String} {v : Link.Sender} {r r' : Link.Receiver} {s' : Session}
    {replies : List Performative} {coming coming' : List Link.Delivery} (h : Lane base x y)
    (hsound : ∀ f ∈ y.outbox.frames, IsSound y.session.face f.2)
    (hhead : x.outbox.frames = (channel, .transfer t) :: rest)
    (hv : x.session.face.senders name = some v) (hhandle : v.endpoint.handle = t.handle)
    (hr : y.session.face.receivers name = some r) (hconveys : Conveys x y name v r coming)
    (hreplies : ∀ p ∈ replies, IsReply r.endpoint.handle p)
    (hface : s'.face = y.session.face.withReceiver name r')
    (hendpoint : r'.endpoint = r.endpoint) (hauto : r'.autoAccept = r.autoAccept)
    (hassembles : Link.Assembles r'.endpoint.maxMessageSize r'.inProgress
      ((x.withFrames rest).transfersOn v.endpoint.handle) coming')
    (hcontent : r'.received.map Link.Message.content ++ coming'.map Link.Delivery.content =
      r.received.map Link.Message.content ++ coming.map Link.Delivery.content)
    (hway : ∀ d ∈ coming, d.settled = false → r.autoAccept = true →
      d ∈ coming' ∨ d.id ∈ acceptedIn (replies.map (y.session.channel, ·))) :
    Lane base (x.withFrames rest) (y.become s' (y.outbox.add y.session.channel replies)) ∧
      SameOutward y (y.become s' (y.outbox.add y.session.channel replies)) := by
  have hother : ∀ handle ≠ v.endpoint.handle,
      (x.withFrames rest).transfersOn handle = x.transfersOn handle := by
    intro handle hne
    rw [transfersOn_withFrames hhead handle, if_neg fun heq => hne (heq.symm.trans hhandle.symm)]
    rfl
  have haccepted := acceptedIn_subset_add y.session.channel replies y.outbox
  constructor
  · refine h.withReceiver hv hr hface hendpoint rfl rfl rfl rfl ?_ haccepted (fun _ _ => rfl) hother
      (hconveys.advance hassembles rfl (fun _ => rfl) ?_ hauto ?_)
    · exact hhead ▸ List.subset_cons_self _ _
    · rw [List.append_assoc, hcontent, ← List.append_assoc]
      rfl
    · rintro d hunsettled hacc (hd | hid)
      · refine (hway d hd hunsettled hacc).imp_right fun hid => ?_
        change d.id ∈ acceptedIn (y.outbox.frames ++ replies.map (y.session.channel, ·))
        rw [acceptedIn_append]
        exact List.mem_append_right _ hid
      · exact Or.inr (haccepted hid)
  · exact sameOutward_replies hsound hr hreplies (by rw [hface]; rfl) (by rw [hface]; rfl)
      (by rw [hface]; rfl) (hface ▸ sameHandles_withReceiver hr (congrArg _ hendpoint)) _

/-- The other side takes the next part of a delivery, whatever part it is. -/
theorem take (h : Lane base x y) (hsound : ∀ f ∈ y.outbox.frames, IsSound y.session.face f.2)
    (hhead : x.outbox.frames = (channel, .transfer t) :: rest) :
    ∃ s' replies, onTransfer t (y.session, y.outbox) =
        .ok () (s', y.outbox.add y.session.channel replies) ∧
      Lane base (x.withFrames rest) (y.become s' (y.outbox.add y.session.channel replies)) ∧
      SameOutward y (y.become s' (y.outbox.add y.session.channel replies)) := by
  obtain ⟨hstate, hsize, name, v, hv, hhandle⟩ :=
    h.sound (channel, .transfer t) (hhead ▸ List.mem_cons_self)
  obtain ⟨r, hr, hpair, coming, hconveys⟩ := h.receiver name v hv
  have hown : x.transfersOn v.endpoint.handle =
      t :: (x.withFrames rest).transfersOn v.endpoint.handle := by
    rw [transfersOn_withFrames hhead, if_pos hhandle.symm]
    rfl
  have hname : y.session.face.inputHandles.get? t.handle = some name := hhandle ▸ hpair.sends
  have hassembles := hconveys.assembles
  rw [hown] at hassembles
  generalize hprogress : r.inProgress = part at hassembles
  cases hassembles with
  | more hpart hkept hmore hfits hrest =>
    obtain ⟨s', grants, htaken, hgrants, hface⟩ :=
      onTransfer_more hname hr hpair.state (hprogress ▸ hpart) hkept hfits hmore y.outbox
    exact ⟨s', _, htaken, h.take_of_taken hsound hhead hv hhandle hr hconveys
      (fun p hp => Or.inl (hgrants p hp)) hface rfl rfl hrest rfl fun d hd _ _ => Or.inl hd⟩
  | @last part t m ts coming hpart hkept hmore hfits hrest =>
    obtain ⟨s', settled, grants, htaken, hgrants, hface⟩ :=
      onTransfer_last hname hr hpair.state (hprogress ▸ hpart) hkept hfits hmore y.outbox
    refine ⟨s', _, htaken, h.take_of_taken hsound hhead hv hhandle hr hconveys ?_ hface rfl rfl
      hrest ?_ fun d hd hunsettled hauto => ?_⟩
    · intro p hp
      rcases List.mem_append.1 hp with hp | hp
      · split_ifs at hp
        · exact Or.inr ⟨_, List.mem_singleton.1 hp⟩
        · cases hp
      · exact Or.inl (hgrants p hp)
    · rw [List.map_append, List.map_cons, List.append_assoc]
      rfl
    · rcases List.mem_cons.1 hd with rfl | hd
      · rw [if_pos ⟨hunsettled, hauto⟩]
        exact Or.inr List.mem_cons_self
      · exact Or.inl hd

end

/-- A message that is given away was the oldest one in the queue. -/
theorem receive {name : String} {r : Link.Receiver} (h : Lane base x y)
    (hr : y.session.face.receivers name = some r)
    (hface : y'.session.face =
      y.session.face.withReceiver name { r with received := r.received.tail })
    (hframes : y'.outbox.frames = y.outbox.frames)
    (hreceived : y'.received =
      y.received ++ r.received.head?.toList.map fun m => (name, m.content)) : Lane base x y' := by
  obtain ⟨v, hv⟩ := h.sender name r hr
  obtain ⟨q, hq, -, coming, hconveys⟩ := h.receiver name v hv
  obtain rfl := Option.some.inj (hr.symm.trans hq)
  have haccepted : acceptedIn y.outbox.frames ⊆ acceptedIn y'.outbox.frames := by
    rw [hframes]
    exact fun _ hid => hid
  refine h.withReceiver hv hr hface rfl rfl rfl rfl rfl (List.Subset.refl _) haccepted ?_
    (fun _ _ => rfl) (hconveys.advance hconveys.assembles rfl (fun _ => rfl) ?_ rfl
      fun d _ _ => Or.imp_right fun hid => haccepted hid)
  · intro n hn
    rw [hreceived, recordedAs_append]
    cases r.received with
    | nil => exact List.append_nil _
    | cons m rest => exact (congrArg _ (recordedAs_of_ne hn _)).trans (List.append_nil _)
  · rw [hreceived, recordedAs_append]
    cases r.received with
    | nil => exact congrArg (· ++ _) (congrArg (· ++ _) (List.append_nil _))
    | cons m rest =>
      change recordedAs name y.received ++ recordedAs name [(name, m.content)] ++
        rest.map Link.Message.content ++ _ = _
      rw [recordedAs_self, List.map_cons, List.append_assoc (recordedAs name y.received)]
      rfl

/-- An acceptance that is brought back reaches the sending ends. -/
theorem accept {id : UInt32} (h : Lane base x y)
    (haccepted : acceptedIn y.outbox.frames = id :: acceptedIn y'.outbox.frames)
    (hface : x'.session.face =
      { x.session.face with
        senders := fun name =>
          if name ∈ x.session.inputHandles.values then
            (x.session.face.senders name).map (Link.Sender.accept id)
          else x.session.face.senders name })
    (hframes : x'.outbox.frames = x.outbox.frames) (hemitted : x'.emitted = x.emitted)
    (hsent : x'.sent = x.sent) (hcollected : x'.collected = x.collected)
    (hsession : y'.session = y.session) (hreceived : y'.received = y.received) :
    Lane base x' y' := by
  -- Every sending end hears of it, since the other end's handle is known under its name.
  have hsenders : ∀ name,
      x'.session.face.senders name = (x.session.face.senders name).map (Link.Sender.accept id) := by
    intro name
    rw [hface]
    change (if name ∈ x.session.inputHandles.values then _ else _) = _
    cases hv : x.session.face.senders name with
    | none => exact ite_self _
    | some v =>
      obtain ⟨r, -, hpair, -⟩ := h.receiver name v hv
      exact if_pos (List.mem_map.2 ⟨_, Table.mem_entries_of_get? hpair.grants, rfl⟩)
  have hsame : SameHandles x.session.face x'.session.face := by
    refine ⟨fun name => ?_, fun _ => by rw [hface]⟩
    rw [hsenders]
    cases x.session.face.senders name with
    | none => rfl
    | some v => exact congrArg (fun e : Link.Endpoint => some e.handle) (v.endpoint_accept id)
  refine h.withSenders (by rw [hface]) (by rw [hface]) hemitted hsent ?_ (by rw [hsession])
    (by rw [hsession]) ?_ ?_
  · rw [hframes]
    exact fun f hf => (h.sound f hf).mono hsame
  · intro name v hv
    exact ⟨v.accept id, by rw [hsenders, hv]; rfl⟩
  · intro name v' hv'
    rw [hsenders] at hv'
    obtain ⟨v, hv, rfl⟩ := Option.map_eq_some_iff.1 hv'
    exact ⟨v, hv, by simp, by simp, fun r coming _ hconveys =>
      hconveys.accept haccepted hframes hsent hcollected hreceived⟩

/-- An outcome that is given away leaves its sending end. -/
theorem collect {name : String} {v : Link.Sender} {id : UInt32} (h : Lane base x y)
    (hv : x.session.face.senders name = some v)
    (hface : x'.session.face =
      x.session.face.withSender name { v with outcomes := v.outcomes.erase id })
    (hframes : x'.outbox.frames = x.outbox.frames) (hemitted : x'.emitted = x.emitted)
    (hsent : x'.sent = x.sent)
    (hcollected : x'.collected =
      x.collected ++ (v.outcomes.get? id).toList.map fun o => ((name, id), o)) :
    Lane base x' y := by
  have hsame : SameHandles x.session.face x'.session.face :=
    hface ▸ sameHandles_withSender hv rfl
  refine h.withSenders (by rw [hface]; rfl) (by rw [hface]; rfl) hemitted hsent ?_ rfl rfl ?_ ?_
  · rw [hframes]
    exact fun f hf => (h.sound f hf).mono hsame
  · intro n w hw
    obtain ⟨w', hw', -⟩ := exists_of_map_eq (hsame.senders n) hw
    exact ⟨w', hw'⟩
  · intro n w' hw'
    rw [hface, Face.senders_withSender] at hw'
    by_cases hn : n = name
    · subst hn
      rw [if_pos rfl] at hw'
      obtain rfl := Option.some.inj hw'
      exact ⟨v, hv, rfl, rfl, fun r coming _ hconveys => hconveys.collect hframes hsent hcollected⟩
    · rw [if_neg hn] at hw'
      refine ⟨w', hw', rfl, rfl, fun r coming _ hconveys =>
        hconveys.congr ?_ (by rw [hsent]) rfl ?_ (List.Subset.refl _)⟩
      · unfold Peer.transfersOn
        rw [hframes]
      · intro i
        have hother : (n, i) ≠ (name, id) := fun heq => hn (congrArg Prod.fst heq)
        rw [hcollected, recordedAs_append]
        cases v.outcomes.get? id with
        | none => exact List.append_nil _
        | some o => exact (congrArg _ (recordedAs_of_ne hother o)).trans (List.append_nil _)

end Lane

end Session

end Amqp
