import Amqp.Proofs.Link.Deliveries
import Amqp.Proofs.Performative.Splitting
import Amqp.Session.Incoming
import Amqp.Session.Links
import Mathlib.Logic.Function.Basic

/-!
# What a session sends

`Outbox` is a carrier that accepts every frame and keeps it.  A session that sends through it never
halts on a frame, so each sending action is an equation: the outputs of links become frames
(`sendOutputs_eq`), and the transfers of a delivery go out in a row (`sendTransfers_eq`).

`Face` is the part of a session that deliveries depend on.  `send` either leaves the face and the
outbox as they are, or puts out transfers that assemble to the delivery it reports (`send_spec`,
`assembles_stamp`).
-/

namespace Amqp

/-! ## Outboxes -/

/-- A carrier that accepts every frame, up to a greatest size for the parts of a delivery. -/
structure Outbox where
  maxFrameSize : UInt32
  frames : List (UInt16 × Performative) := []

namespace Outbox

/-- The outbox with more frames on a channel. -/
def add (channel : UInt16) (ps : List Performative) (o : Outbox) : Outbox :=
  { o with frames := o.frames ++ ps.map (channel, ·) }

instance : FrameCarrier Outbox where
  state _ := .opened
  maxFrameSize := maxFrameSize
  carry channel p := fun o => .ok () (o.add channel [p])

@[simp] theorem add_nil (channel : UInt16) (o : Outbox) : o.add channel [] = o := by
  simp [add]

@[simp] theorem add_add (channel : UInt16) (ps qs : List Performative) (o : Outbox) :
    (o.add channel ps).add channel qs = o.add channel (ps ++ qs) := by
  simp [add]

end Outbox

/-! ## Results -/

namespace Session

/-- The state after an action, also after one that stopped short. -/
def stateAfter {σ α : Type} : EStateM.Result Halt σ α → σ
  | .ok _ s => s
  | .error _ s => s

/-- The delivery id that a send reports. -/
def sentId {σ : Type} : EStateM.Result Halt σ SendOutcome → Option UInt32
  | .ok (.sent id) _ => some id
  | _ => none

/-- The parts of deliveries among frames. -/
def transfersOf (frames : List (UInt16 × Performative)) : List Transfer :=
  frames.filterMap fun f =>
    match f.2 with
    | .transfer t => some t
    | _ => none

theorem transfersOf_append (xs ys : List (UInt16 × Performative)) :
    transfersOf (xs ++ ys) = transfersOf xs ++ transfersOf ys :=
  List.filterMap_append

theorem transfersOf_transfers (channel : UInt16) (ts : List Transfer) :
    transfersOf ((ts.map Performative.transfer).map (channel, ·)) = ts := by
  induction ts with
  | nil => rfl
  | cons t ts ih => exact congrArg (t :: ·) ih

/-! ## Faces -/

/-- What deliveries depend on in a session: the names behind the peer's handles, the next transfer
id, and its links without their counts. -/
structure Face where
  inputHandles : Table UInt32 String
  nextOutgoingId : UInt32
  senders : String → Option Link.Sender
  receivers : String → Option Link.Receiver

/-- The face of a session. -/
def face (s : Session) : Face where
  inputHandles := s.inputHandles
  nextOutgoingId := s.nextOutgoingId
  senders name := (s.links.get? name).bind fun l => l.still.sender?
  receivers name := (s.links.get? name).bind fun l => l.still.receiver?

/-- The face with another sending end under a name. -/
def Face.withSender (name : String) (v : Link.Sender) (f : Face) : Face :=
  { f with senders := Function.update f.senders name (some v) }

/-- The face with another receiving end under a name. -/
def Face.withReceiver (name : String) (r : Link.Receiver) (f : Face) : Face :=
  { f with receivers := Function.update f.receivers name (some r) }

theorem Face.senders_withSender (name : String) (v : Link.Sender) (f : Face) (n : String) :
    (f.withSender name v).senders n = if n = name then some v else f.senders n :=
  Function.update_apply _ _ _ _

theorem senders_eq_some_iff {s : Session} {name : String} {v : Link.Sender} :
    s.face.senders name = some v ↔ ∃ w, s.links.get? name = some (.sender w) ∧ w.still = v := by
  change (s.links.get? name).bind _ = some v ↔ _
  cases s.links.get? name with
  | none => simp
  | some l =>
    cases l with
    | sender w => simp [Link.still, Link.sender?]
    | receiver w => simp [Link.still, Link.sender?]

theorem receivers_eq_some_iff {s : Session} {name : String} {r : Link.Receiver} :
    s.face.receivers name = some r ↔
      ∃ w, s.links.get? name = some (.receiver w) ∧ w.still = r := by
  change (s.links.get? name).bind _ = some r ↔ _
  cases s.links.get? name with
  | none => simp
  | some l =>
    cases l with
    | sender w => simp [Link.still, Link.receiver?]
    | receiver w => simp [Link.still, Link.receiver?]

theorem face_withLink (name : String) (l : Link) (s : Session) :
    (s.withLink name l).face =
      { s.face with
        senders := Function.update s.face.senders name l.still.sender?
        receivers := Function.update s.face.receivers name l.still.receiver? } := by
  have hget : ∀ n, (s.withLink name l).links.get? n = if n = name then some l else s.links.get? n :=
    fun n => Table.get?_insert _ _ _ _
  unfold face
  congr 1
  · funext n
    rw [hget, Function.update_apply]
    split_ifs <;> rfl
  · funext n
    rw [hget, Function.update_apply]
    split_ifs <;> rfl

theorem face_withLink_sender {name : String} {v : Link.Sender} {s : Session}
    (h : s.links.get? name = some (.sender v)) (v' : Link.Sender) :
    (s.withLink name (.sender v')).face = s.face.withSender name v'.still := by
  have hnone : s.face.receivers name = none := by
    change (s.links.get? name).bind _ = none
    rw [h]
    rfl
  have hsame : Function.update s.face.receivers name (Link.sender v').still.receiver? =
      s.face.receivers :=
    Function.update_eq_self_iff.2 hnone.symm
  rw [face_withLink, hsame]
  rfl

theorem face_withLink_receiver {name : String} {r : Link.Receiver} {s : Session}
    (h : s.links.get? name = some (.receiver r)) (r' : Link.Receiver) :
    (s.withLink name (.receiver r')).face = s.face.withReceiver name r'.still := by
  have hnone : s.face.senders name = none := by
    change (s.links.get? name).bind _ = none
    rw [h]
    rfl
  have hsame : Function.update s.face.senders name (Link.receiver r').still.sender? =
      s.face.senders :=
    Function.update_eq_self_iff.2 hnone.symm
  rw [face_withLink, hsame]
  rfl

theorem Face.withSender_self {name : String} {v : Link.Sender} {f : Face}
    (h : f.senders name = some v) : f.withSender name v = f := by
  unfold withSender
  rw [Function.update_eq_self_iff.2 h.symm]

/-! ## Outputs -/

open Acting

/-- The frame that an output of a link becomes. -/
def frameOf (s : Session) : Link.Output → Performative
  | .attach v => .attach v
  | .flow v => .flow (s.toFlow v)
  | .disposition v => .disposition v
  | .detach v => .detach v

theorem sendOutputs_eq (outputs : List Link.Output) (s : Session) (o : Outbox) :
    sendOutputs outputs (s, o) = .ok () (s, o.add s.channel (outputs.map s.frameOf)) := by
  induction outputs generalizing o with
  | nil =>
    rw [List.map_nil, Outbox.add_nil]
    rfl
  | cons output outputs ih =>
    have hone : sendOutput output (s, o) = .ok () (s, o.add s.channel [s.frameOf output]) := by
      cases output <;> rfl
    unfold sendOutputs
    rw [Action.bind_of_ok hone, ih, Outbox.add_add]
    rfl

theorem commit_eq (change : Session × List Link.Output) (s : Session) (o : Outbox) :
    commit change (s, o) =
      .ok () (change.1, o.add change.1.channel (change.2.map change.1.frameOf)) := by
  unfold commit
  exact sendOutputs_eq change.2 change.1 o

/-! ## Transfers -/

theorem face_countOutgoing (s : Session) :
    s.countOutgoing.face = { s.face with nextOutgoingId := s.nextOutgoingId + 1 } := rfl

theorem sendTransfers_eq (ts : List Transfer) (s : Session) (o : Outbox) :
    ∃ s', sendTransfers ts (s, o) = .ok () (s', o.add s.channel (ts.map .transfer)) ∧
      s'.links = s.links ∧
      s'.face = { s.face with nextOutgoingId := s.nextOutgoingId + UInt32.ofNat ts.length } := by
  induction ts generalizing s o with
  | nil =>
    refine ⟨s, ?_, rfl, ?_⟩
    · rw [List.map_nil, Outbox.add_nil]
      rfl
    · change s.face = { s.face with nextOutgoingId := s.nextOutgoingId + 0 }
      rw [UInt32.add_zero]
      rfl
  | cons t ts ih =>
    obtain ⟨s', hs', hlinks, hface⟩ := ih s.countOutgoing (o.add s.channel [.transfer t])
    refine ⟨s', ?_, hlinks, ?_⟩
    · have hchannel : s.countOutgoing.channel = s.channel := rfl
      unfold sendTransfers
      change sendTransfers ts (s.countOutgoing, o.add s.channel [.transfer t]) = _
      rw [hs', hchannel, Outbox.add_add]
      rfl
    · have hnext : s.countOutgoing.nextOutgoingId = s.nextOutgoingId + 1 := rfl
      rw [hface, face_countOutgoing, hnext, List.length_cons, Nat.add_comm, UInt32.ofNat_add,
        UInt32.add_assoc]
      rfl

theorem length_stamp (deliveryId : UInt32) (ts : List Transfer) :
    (stamp deliveryId ts).length = ts.length := by
  cases ts <;> rfl

/-- What a delivery does to a session without room for it, or one that refuses it: it changes no
count that deliveries depend on, and no frame goes out. -/
def IsUnsent (s : Session) (o : Outbox) :
    EStateM.Result Halt (Session × Outbox) SendOutcome → Prop
  | .ok outcome (s', o') => (∀ id, outcome ≠ .sent id) ∧ s'.face = s.face ∧ o' = o
  | .error _ (s', o') => s'.face = s.face ∧ o' = o

theorem IsUnsent.congr {s s' : Session} {o : Outbox}
    {result : EStateM.Result Halt (Session × Outbox) SendOutcome} (h : IsUnsent s' o result)
    (hface : s'.face = s.face) : IsUnsent s o result := by
  cases result with
  | ok outcome r => exact ⟨h.1, h.2.1.trans hface, h.2.2⟩
  | error halt r => exact ⟨h.1.trans hface, h.2⟩

/-- What follows a delivery only acts on one that is sent. -/
theorem IsUnsent.bind {s : Session} {o : Outbox} {x : Acting Outbox SendOutcome}
    {f : SendOutcome → Acting Outbox SendOutcome} {r : Session × Outbox} (h : IsUnsent s o (x r))
    (hf : ∀ outcome, (∀ id, outcome ≠ .sent id) → f outcome = pure outcome) :
    IsUnsent s o ((x >>= f) r) := by
  cases hresult : x r with
  | error halt r' =>
    rw [hresult] at h
    rw [Action.bind_of_error hresult]
    exact h
  | ok outcome r' =>
    rw [hresult] at h
    rw [Action.bind_of_ok hresult, hf outcome h.1]
    exact h

theorem sendDelivery_spec (t : Transfer) (s : Session) (o : Outbox) :
    IsUnsent s o (sendDelivery t (s, o)) ∨
      ∃ ts s', t.split o.maxFrameSize = .ok ts ∧
        sendDelivery t (s, o) = .ok (.sent s.nextOutgoingId)
          (s', o.add s.channel ((stamp s.nextOutgoingId ts).map .transfer)) ∧
        s'.links = s.links ∧
        s'.face = { s.face with nextOutgoingId := s.nextOutgoingId + UInt32.ofNat ts.length } := by
  unfold sendDelivery
  rw [Action.get_bind]
  dsimp only
  by_cases hstate : s.state ≠ .mapped
  · rw [if_pos hstate]
    exact Or.inl ⟨by simp, rfl, rfl⟩
  rw [if_neg hstate]
  by_cases hwindow : s.remoteIncomingWindow ≤ 0
  · rw [if_pos hwindow]
    exact Or.inl ⟨by simp, rfl, rfl⟩
  rw [if_neg hwindow]
  have hmax : FrameCarrier.maxFrameSize o = o.maxFrameSize := rfl
  rw [hmax]
  cases hsplit : t.split o.maxFrameSize with
  | error f => exact Or.inl ⟨rfl, rfl⟩
  | ok ts =>
    rw [Action.ofExcept_ok_bind]
    by_cases hroom : s.remoteIncomingWindow < ts.length
    · rw [if_pos hroom]
      exact Or.inl ⟨by simp, rfl, rfl⟩
    · rw [if_neg hroom]
      obtain ⟨s', hs', hlinks, hface⟩ := sendTransfers_eq (stamp s.nextOutgoingId ts) s o
      rw [length_stamp] at hface
      rw [Action.bind_of_ok hs']
      exact Or.inr ⟨ts, s', rfl, rfl, hlinks, hface⟩

/-! ## Links by name -/

theorem link_eq_ok {s : Session} {name : String} {l : Link} (h : s.links.get? name = some l) :
    s.link name = .ok l := by
  unfold link
  rw [h]

theorem links_of_link {s : Session} {name : String} {l : Link} (h : s.link name = .ok l) :
    s.links.get? name = some l := by
  unfold link at h
  cases hl : s.links.get? name with
  | none =>
    rw [hl] at h
    cases h
  | some l' =>
    rw [hl] at h
    cases h
    rfl

theorem links_of_sender {s : Session} {name : String} {v : Link.Sender}
    (h : s.sender name = .ok v) : s.links.get? name = some (.sender v) := by
  unfold sender at h
  cases hl : s.link name with
  | error f =>
    rw [hl] at h
    cases h
  | ok l =>
    rw [hl] at h
    cases l with
    | sender w =>
      cases h
      exact links_of_link hl
    | receiver w => cases h

theorem links_of_receiver {s : Session} {name : String} {v : Link.Receiver}
    (h : s.receiver name = .ok v) : s.links.get? name = some (.receiver v) := by
  unfold receiver at h
  cases hl : s.link name with
  | error f =>
    rw [hl] at h
    cases h
  | ok l =>
    rw [hl] at h
    cases l with
    | sender w => cases h
    | receiver w =>
      cases h
      exact links_of_link hl

section

variable {κ : Type} [FrameCarrier κ] {attach : Attach} {s : Session}

theorem onAttach_of_held {holder : String}
    (hholder : s.inputHandles.get? attach.handle = some holder) (hname : holder ≠ attach.name)
    (k : κ) : onAttach attach (s, k) = rejectHandleInUse attach.handle holder (s, k) := by
  unfold onAttach
  rw [Acting.current_bind, hholder]
  dsimp only
  rw [if_pos hname]

theorem onAttach_of_known {l : Link}
    (hyields : ∀ n, s.inputHandles.get? attach.handle = some n → n = attach.name)
    (hl : s.links.get? attach.name = some l) (k : κ) :
    onAttach attach (s, k) = commit (s.attachKnown attach l) (s, k) := by
  unfold onAttach
  rw [Acting.current_bind]
  cases hholder : s.inputHandles.get? attach.handle with
  | none =>
    dsimp only
    rw [hl]
  | some holder =>
    dsimp only
    rw [if_neg (not_not.2 (hyields holder hholder)), hl]

theorem onAttach_of_new
    (hyields : ∀ n, s.inputHandles.get? attach.handle = some n → n = attach.name)
    (hl : s.links.get? attach.name = none) (k : κ) :
    onAttach attach (s, k) = (Action.ofExcept (s.attachNew attach) >>= commit) (s, k) := by
  unfold onAttach
  rw [Acting.current_bind]
  cases hholder : s.inputHandles.get? attach.handle with
  | none =>
    dsimp only
    rw [hl]
  | some holder =>
    dsimp only
    rw [if_neg (not_not.2 (hyields holder hholder)), hl]

/-- Upon the peer's attach a session ends if another link has the handle; or else it attaches the
link of that name, or adds it if there is none. -/
theorem onAttach_cases (attach : Attach) (s : Session) :
    (∃ holder, ∀ k : κ,
      onAttach attach (s, k) = rejectHandleInUse attach.handle holder (s, k)) ∨
    (∀ n, s.inputHandles.get? attach.handle = some n → n = attach.name) ∧
      ((∃ l, s.links.get? attach.name = some l ∧
          ∀ k : κ, onAttach attach (s, k) = commit (s.attachKnown attach l) (s, k)) ∨
        s.links.get? attach.name = none ∧ ∀ k : κ, onAttach attach (s, k) =
          (Action.ofExcept (s.attachNew attach) >>= commit) (s, k)) := by
  by_cases hyields : ∀ n, s.inputHandles.get? attach.handle = some n → n = attach.name
  · refine Or.inr ⟨hyields, ?_⟩
    cases hl : s.links.get? attach.name with
    | none => exact Or.inr ⟨rfl, onAttach_of_new hyields hl⟩
    | some l => exact Or.inl ⟨l, rfl, onAttach_of_known hyields hl⟩
  · obtain ⟨holder, hheld⟩ := not_forall.1 hyields
    obtain ⟨hholder, hname⟩ := Classical.not_imp.1 hheld
    exact Or.inl ⟨holder, onAttach_of_held hholder hname⟩

end

/-! ## Sending a message -/

/-- A message is not sent, or goes out in the frames of a draft that is within the limit of the
receiver; then the sending end waits for its outcome, unless it is settled. -/
theorem send_spec (now : Nat) (name : String) (payload : Bytes) (settled : Bool) (s : Session)
    (o : Outbox) :
    IsUnsent s o (send now name payload settled (s, o)) ∨
      ∃ v tag pending ts s', s.face.senders name = some v ∧
        Link.Within v.endpoint.remoteMaxMessageSize payload.length ∧
        (Link.Sender.drafted v.endpoint.handle tag payload settled).split o.maxFrameSize = .ok ts ∧
        send now name payload settled (s, o) = .ok (.sent s.nextOutgoingId)
          (s', o.add s.channel ((stamp s.nextOutgoingId ts).map .transfer)) ∧
        s'.face =
          { s.face with
            nextOutgoingId := s.nextOutgoingId + UInt32.ofNat ts.length }.withSender name
              (v.expect s.nextOutgoingId settled pending) := by
  unfold send
  rw [Acting.current_bind]
  by_cases hstate : s.state ≠ .mapped
  · rw [if_pos hstate]
    exact Or.inl ⟨by simp, rfl, rfl⟩
  rw [if_neg hstate]
  cases hsender : s.sender name with
  | error f => exact Or.inl ⟨rfl, rfl⟩
  | ok w =>
    have hlink := links_of_sender hsender
    rw [Action.ofExcept_ok_bind]
    cases hdraft : w.draft payload settled with
    | error f => exact Or.inl ⟨rfl, rfl⟩
    | ok drafted =>
      rw [Action.ofExcept_ok_bind]
      obtain ⟨t | t, w'⟩ := drafted
      · exact Or.inl ⟨by simp, rfl, rfl⟩
      obtain ⟨ht, hstill, hlimit⟩ := Link.Sender.draft_spec hdraft
      -- The draft only counts a tag.
      have hsame : s.face.senders name = some w.still := senders_eq_some_iff.2 ⟨w, hlink, rfl⟩
      have hface : (s.withLink name (.sender w')).face = s.face := by
        rw [face_withLink_sender hlink, hstill]
        exact Face.withSender_self hsame
      dsimp only
      rw [Acting.update_bind]
      rcases sendDelivery_spec t (s.withLink name (.sender w')) o with
        hunsent | ⟨ts, s', hsplit, hsent, hlinks, hface'⟩
      · refine Or.inl ((hunsent.congr hface).bind fun outcome hne => ?_)
        cases outcome with
        | sent id => exact absurd rfl (hne id)
        | busy => rfl
        | refused => rfl
      · rw [Action.bind_of_ok hsent]
        subst ht
        obtain ⟨pending, hbook⟩ := Link.Sender.book_spec s.nextOutgoingId w.endpoint.handle
          w.nextTag payload settled now w'
        refine Or.inr ⟨w.still, w.nextTag, pending, ts, _, hsame, hlimit, hsplit, rfl, ?_⟩
        have hget : s'.links.get? name = some (.sender w') := by
          rw [hlinks]
          exact (Table.get?_insert _ _ _ _).trans (if_pos rfl)
        rw [hface] at hface'
        rw [← hstill, ← hbook]
        refine (face_withLink_sender hget _).trans ?_
        rw [hface']
        rfl

/-! ## The parts of a delivery -/

theorem mem_stamp {deliveryId : UInt32} {ts : List Transfer} {u : Transfer}
    (h : u ∈ stamp deliveryId ts) : ∃ t ∈ ts, ∃ id, u = { t with deliveryId := id } := by
  cases ts with
  | nil => cases h
  | cons t ts =>
    rcases List.mem_cons.1 h with rfl | h
    · exact ⟨t, List.mem_cons_self, some deliveryId, rfl⟩
    · exact ⟨u, List.mem_cons_of_mem t h, u.deliveryId, rfl⟩

/-- The parts of a delivery fit into the greatest frame. -/
theorem size_le_of_mem_stamp {deliveryId : UInt32} {t u : Transfer} {maxFrameSize : UInt32}
    {ts : List Transfer} (h : t.split maxFrameSize = .ok ts) (hu : u ∈ stamp deliveryId ts) :
    Frame.size (.transfer u) ≤ maxFrameSize.toNat := by
  obtain ⟨part, hpart, id, rfl⟩ := mem_stamp hu
  exact Transfer.size_le_of_mem_split h hpart id

/-- The parts of a draft are on its handle, carry no state and fit into frames. -/
theorem of_mem_stamp {deliveryId handle : UInt32} {tag : UInt64} {payload : Bytes} {settled : Bool}
    {maxFrameSize : UInt32} {ts : List Transfer} {u : Transfer}
    (h : (Link.Sender.drafted handle tag payload settled).split maxFrameSize = .ok ts)
    (hu : u ∈ stamp deliveryId ts) :
    u.handle = handle ∧ u.state = none ∧ Frame.size (.transfer u) < UInt32.size := by
  have hsize := size_le_of_mem_stamp h hu
  obtain ⟨t, ht, id, rfl⟩ := mem_stamp hu
  have hfields : t.handle = handle ∧ t.state = none := by
    obtain ⟨capacity, -, -, ⟨-, rfl⟩ | ⟨ps, -, -, -, rfl⟩⟩ := Transfer.split_cases h
    · rw [List.mem_singleton] at ht
      subst ht
      exact ⟨rfl, rfl⟩
    · rcases List.mem_cons.1 ht with rfl | ht
      · exact ⟨rfl, rfl⟩
      · obtain ⟨p, -, more, rfl⟩ := Transfer.eq_of_mem_continuations ht
        exact ⟨rfl, rfl⟩
  exact ⟨hfields.1, hfields.2, Nat.lt_of_le_of_lt hsize maxFrameSize.toNat_lt⟩

theorem extend_continuation (handle : UInt32) (more : Bool) (p : Bytes) (m : Link.Message) :
    m.extend { handle, more, payload := p } = { m with payload := m.payload ++ p } := by
  have hsettled : (m.settled || (none : Option Bool) == some true) = m.settled := by simp
  unfold Link.Message.extend
  rw [hsettled]

theorem assembles_continuations {limit : Option UInt64} (handle : UInt32) (m : Link.Message)
    {ps : List Bytes} (hps : ps ≠ [])
    (hsize : Link.Within limit (m.payload ++ ps.flatten).length) :
    Link.Assembles limit (some m) (Transfer.continuations handle false ps)
      [⟨m.deliveryId, m.payload ++ ps.flatten, m.settled⟩] := by
  induction ps generalizing m with
  | nil => exact absurd rfl hps
  | cons p ps ih =>
    cases ps with
    | nil =>
      rw [List.flatten_singleton] at hsize ⊢
      have hextend := extend_continuation handle false p m
      have hlast : Link.Assembles limit (some m) [{ handle, more := false, payload := p }]
          [(m.extend { handle, more := false, payload := p }).delivery] :=
        .last rfl rfl rfl (by rwa [hextend]) .done
      rw [hextend] at hlast
      exact hlast
    | cons q ps =>
      have hextend := extend_continuation handle true p m
      rw [List.flatten_cons, ← List.append_assoc] at hsize ⊢
      have hpart : Link.Within limit (m.payload ++ p).length :=
        hsize.mono (List.sublist_append_left _ _).length_le
      refine .more (t := { handle, more := true, payload := p }) rfl rfl rfl (by rwa [hextend]) ?_
      rw [hextend]
      exact ih { m with payload := m.payload ++ p } (by simp) hsize

/-- The first transfer of a delivery. -/
def firstPart (deliveryId handle : UInt32) (tag : UInt64) (settled more : Bool) (payload : Bytes) :
    Transfer :=
  { Link.Sender.drafted handle tag payload settled with deliveryId := some deliveryId, more }

/-- The message that the first transfer of a delivery begins. -/
def firstMessage (deliveryId : UInt32) (tag : UInt64) (settled : Bool) (payload : Bytes) :
    Link.Message :=
  { deliveryId, deliveryTag := some (Word.encode 8 tag.toNat), settled, payload }

theorem extend_firstPart (deliveryId handle : UInt32) (tag : UInt64) (settled more : Bool)
    (payload : Bytes) :
    (firstMessage deliveryId tag settled []).extend
        (firstPart deliveryId handle tag settled more payload) =
      firstMessage deliveryId tag settled payload := by
  have hflag : (settled || some settled == some true) = settled := by cases settled <;> rfl
  unfold Link.Message.extend
  change { firstMessage deliveryId tag settled payload with
    settled := settled || some settled == some true } = _
  rw [hflag]
  rfl

/-- What goes out for a draft within the limit of the receiver assembles to the delivery. -/
theorem assembles_stamp {limit : Option UInt64} {handle : UInt32} {tag : UInt64} {payload : Bytes}
    {settled : Bool} {maxFrameSize : UInt32} {ts : List Transfer}
    (h : (Link.Sender.drafted handle tag payload settled).split maxFrameSize = .ok ts)
    (hsize : Link.Within limit payload.length) (deliveryId : UInt32) :
    Link.Assembles limit none (stamp deliveryId ts) [⟨deliveryId, payload, settled⟩] := by
  have hextend := extend_firstPart deliveryId handle tag settled
  obtain ⟨capacity, -, -, ⟨-, rfl⟩ | ⟨ps, hps, hflatten, -, rfl⟩⟩ := Transfer.split_cases h
  · have hlast : Link.Assembles limit none [firstPart deliveryId handle tag settled false payload]
        [((firstMessage deliveryId tag settled []).extend
          (firstPart deliveryId handle tag settled false payload)).delivery] :=
      .last rfl rfl rfl (by rw [hextend]; exact hsize) .done
    rw [hextend] at hlast
    exact hlast
  · change ps.flatten = payload.drop capacity at hflatten
    have hwhole : payload.take capacity ++ ps.flatten = payload := by
      rw [hflatten, List.take_append_drop]
    refine .more (m := firstMessage deliveryId tag settled [])
      (t := firstPart deliveryId handle tag settled true (payload.take capacity)) rfl rfl rfl ?_ ?_
    · rw [hextend]
      exact hsize.mono (List.length_take_le' _ _)
    · rw [hextend]
      have hfits : Link.Within limit (payload.take capacity ++ ps.flatten).length := by
        rwa [hwhole]
      have hrest := assembles_continuations handle
        (firstMessage deliveryId tag settled (payload.take capacity)) hps hfits
      change Link.Assembles limit _ _
        [⟨deliveryId, payload.take capacity ++ ps.flatten, settled⟩] at hrest
      rw [hwhole] at hrest
      exact hrest

end Session

end Amqp
