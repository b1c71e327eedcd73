import Amqp.Proofs.Session.Lane

/-!
# Two peers that exchange frames

A world is two peers whose sessions are connected: frames of one side are relayed in order through
the codec to the other.  In between, messages are sent on any link, with any payload, flag and
frame size and whatever comes of it, credit is granted, messages are received and outcomes are
taken.

`Lanes` holds the deliveries of both directions together.  Every step keeps it (`Lanes.step`); for a
frame that is relayed, `Lanes.relay` also says what goes out in return.
-/

namespace Amqp.Session

/-! ## Worlds -/

/-- One of two sides. -/
inductive Side where
  | left
  | right
deriving DecidableEq, Repr

namespace Side

/-- The opposite side. -/
def other : Side → Side
  | left => right
  | right => left

@[simp] theorem other_other (side : Side) : side.other.other = side := by cases side <;> rfl

theorem other_ne (side : Side) : side.other ≠ side := by cases side <;> simp [other]

end Side

theorem sentId_of_isUnsent {s : Session} {o : Outbox}
    {result : EStateM.Result Halt (Session × Outbox) SendOutcome} (h : IsUnsent s o result) :
    sentId result = none ∧ (stateAfter result).1.face = s.face ∧ (stateAfter result).2 = o := by
  cases result with
  | error halt r => exact ⟨rfl, h⟩
  | ok outcome r =>
    cases outcome with
    | sent id => exact absurd rfl (h.1 id)
    | busy => exact ⟨rfl, h.2⟩
    | refused => exact ⟨rfl, h.2⟩

namespace Peer

/-- The peer after an action of its session. -/
def act (action : Acting Outbox Unit) (x : Peer) : Peer :=
  let (s, o) := stateAfter (action (x.session, x.outbox))
  x.become s o

theorem act_of_ok {action : Acting Outbox Unit} {x : Peer} {s : Session} {o : Outbox}
    (h : action (x.session, x.outbox) = .ok () (s, o)) : x.act action = x.become s o := by
  unfold act
  rw [h]
  rfl

/-- Sends a message, and records what was sent. -/
def send (now : Nat) (name : String) (payload : Bytes) (settled : Bool) (x : Peer) : Peer :=
  let result := Session.send now name payload settled (x.session, x.outbox)
  let (s, o) := stateAfter result
  { x.become s o with
    emitted := x.emitted + ((transfersOf o.frames).length - (transfersOf x.outbox.frames).length)
    sent := x.sent ++ (sentId result).toList.map fun id => (name, ⟨id, payload, settled⟩) }

/-- Receives a message, and records it. -/
def receive (name : String) (x : Peer) : Peer :=
  match Session.receive name x.session with
  | .ok (message, s) =>
    { x with
      session := s
      received := x.received ++ message.toList.map fun m => (name, m.content) }
  | .error _ => x

/-- Takes the outcome of a delivery, and records it. -/
def collect (name : String) (id : UInt32) (x : Peer) : Peer :=
  match Session.collectOutcome name id x.session with
  | .ok (outcome, s) =>
    { x with
      session := s
      collected := x.collected ++ outcome.toList.map fun o => ((name, id), o) }
  | .error _ => x

end Peer

/-- What can happen: the frame size of a side changes, a message is sent, credit is granted, the
oldest frame of a side is relayed or, if it is a flow, skipped, a message is received, an outcome is
taken, or the timers of a side act. -/
inductive Step where
  | limit (side : Side) (maxFrameSize : UInt32)
  | send (side : Side) (now : Nat) (name : String) (payload : Bytes) (settled : Bool)
  | grant (side : Side) (name : String) (credit : UInt32)
  | relay (side : Side)
  | skip (side : Side)
  | receive (side : Side) (name : String)
  | collect (side : Side) (name : String) (id : UInt32)
  | evaluate (side : Side) (now : Nat)

/-- The two sides of a connection. -/
abbrev World := Side → Peer

namespace World

/-- The world with another peer on a side. -/
def set (side : Side) (x : Peer) (w : World) : World := Function.update w side x

/-- Relays the oldest frame of a side: the other side takes what its octets say. -/
def relay (side : Side) (w : World) : World :=
  match (w side).outbox.frames with
  | [] => w
  | (channel, p) :: rest =>
    let w := w.set side ((w side).withFrames rest)
    match Frame.relay channel p with
    | .error _ => w
    | .ok (channel, p) => w.set side.other ((w side.other).act (dispatch channel p))

/-- Leaves the oldest frame of a side out if it is a flow. -/
def skip (side : Side) (w : World) : World :=
  match (w side).outbox.frames with
  | (_, .flow _) :: rest => w.set side ((w side).withFrames rest)
  | _ => w

/-- The world after a step. -/
def step (w : World) : Step → World
  | .limit side maxFrameSize =>
    w.set side { w side with outbox := { (w side).outbox with maxFrameSize } }
  | .send side now name payload settled => w.set side ((w side).send now name payload settled)
  | .grant side name credit => w.set side ((w side).act (grantCredit name credit))
  | .relay side => w.relay side
  | .skip side => w.skip side
  | .receive side name => w.set side ((w side).receive name)
  | .collect side name id => w.set side ((w side).collect name id)
  | .evaluate side now =>
    w.set side { w side with session := (w side).session.evaluate now }

/-- The world after steps in a row. -/
def run (w : World) (steps : List Step) : World := steps.foldl step w

/-- The world in which two sessions begin to exchange frames. -/
def start (sessions : Side → Session) (maxFrameSizes : Side → UInt32) : World := fun side =>
  { session := sessions side, outbox := { maxFrameSize := maxFrameSizes side } }

theorem set_self (side : Side) (x : Peer) (w : World) : w.set side x side = x :=
  Function.update_self _ _ _

theorem set_of_ne {side s : Side} (h : s ≠ side) (x : Peer) (w : World) : w.set side x s = w s :=
  Function.update_of_ne h _ _

end World

/-! ## Both lanes -/

/-- The invariant of the deliveries in both directions. -/
def Lanes (base : Side → UInt32) (w : World) : Prop :=
  ∀ side, Lane (base side) (w side) (w side.other)

namespace Lanes

variable {base : Side → UInt32} {w : World}

theorem back (h : Lanes base w) (side : Side) : Lane (base side.other) (w side.other) (w side) := by
  have hback := h side.other
  rwa [Side.other_other] at hback

theorem of_sides (side : Side) (hout : Lane (base side) (w side) (w side.other))
    (hin : Lane (base side.other) (w side.other) (w side)) : Lanes base w := by
  intro s
  by_cases hs : s = side
  · rw [hs]
    exact hout
  · have hother : s = side.other := by
      cases s <;> cases side <;> first | rfl | exact absurd rfl hs
    rw [hother, Side.other_other]
    exact hin

/-- A change of one side that keeps the lanes to it and from it. -/
theorem set {side : Side} {x : Peer} (hout : Lane (base side) x (w side.other))
    (hin : Lane (base side.other) (w side.other) x) : Lanes base (w.set side x) := by
  have hself := World.set_self side x w
  have hother := World.set_of_ne side.other_ne x w
  refine of_sides side ?_ ?_
  · rw [hself, hother]
    exact hout
  · rw [hself, hother]
    exact hin

/-- A change of both sides that keeps the lanes between them. -/
theorem set_set {side : Side} {x y : Peer} (hout : Lane (base side) x y)
    (hin : Lane (base side.other) y x) : Lanes base ((w.set side x).set side.other y) := by
  have hself : ((w.set side x).set side.other y) side = x :=
    (World.set_of_ne side.other_ne.symm y _).trans (World.set_self side x w)
  have hother := World.set_self side.other y (w.set side x)
  refine of_sides side ?_ ?_
  · rw [hself, hother]
    exact hout
  · rw [hself, hother]
    exact hin

/-- A change of one side that deliveries do not depend on. -/
theorem quiet {side : Side} {x : Peer} (h : Lanes base w)
    (hface : x.session.face = (w side).session.face)
    (hframes : x.outbox.frames = (w side).outbox.frames) (hemitted : x.emitted = (w side).emitted)
    (hsent : x.sent = (w side).sent) (hreceived : x.received = (w side).received)
    (hcollected : x.collected = (w side).collected) : Lanes base (w.set side x) := by
  have hin : SameInward (w side) x :=
    ⟨by rw [hface], by rw [hface], hreceived, by rw [hframes]; exact List.Subset.refl _⟩
  have hout : SameOutward (w side) x := by
    refine ⟨by rw [hface], by rw [hface], by rw [hface], hemitted, hsent, hcollected,
      by rw [hframes], ?_⟩
    rw [hface, hframes]
    exact (h side).sound
  exact set ((h side).congr hout (.refl _)) ((h.back side).congr (h.back side).sameOutward hin)

/-- A frame that is no part of a delivery and no acceptance may leave the outbox. -/
theorem withFrames {side : Side} {rest : List (UInt16 × Performative)} (h : Lanes base w)
    (hrest : rest ⊆ (w side).outbox.frames)
    (htransfers : transfersOf rest = transfersOf (w side).outbox.frames)
    (haccepted : acceptedIn rest = acceptedIn (w side).outbox.frames) :
    Lanes base (w.set side ((w side).withFrames rest)) := by
  refine set ((h side).congr ?_ (.refl _))
    ((h.back side).congr (h.back side).sameOutward ?_)
  · exact ⟨rfl, rfl, rfl, rfl, rfl, rfl, htransfers, fun f hf => (h side).sound f (hrest hf)⟩
  · exact ⟨rfl, rfl, rfl, haccepted ▸ List.Subset.refl _⟩

/-! ### Local steps -/

theorem send {side : Side} (h : Lanes base w) (hcount : (w side).emitted < UInt32.size) (now : Nat)
    (name : String) (payload : Bytes) (settled : Bool) :
    Lanes base (w.set side ((w side).send now name payload settled)) := by
  unfold Peer.send
  rcases send_spec now name payload settled (w side).session (w side).outbox with
    hunsent | ⟨v, tag, pending, ts, s', hv, hlimit, hsplit, hsent, hface⟩
  · obtain ⟨hid, hface, houtbox⟩ := sentId_of_isUnsent hunsent
    dsimp only
    rw [hid, houtbox, Nat.sub_self]
    exact h.quiet hface rfl rfl (List.append_nil _) rfl rfl
  · rw [hsent]
    have hframes : transfersOf ((w side).outbox.add (w side).session.channel
        ((stamp (w side).session.nextOutgoingId ts).map .transfer)).frames =
        transfersOf (w side).outbox.frames ++ stamp (w side).session.nextOutgoingId ts := by
      change transfersOf ((w side).outbox.frames ++ _) = _
      rw [transfersOf_append, transfersOf_transfers]
    have hemitted : (transfersOf ((w side).outbox.add (w side).session.channel
        ((stamp (w side).session.nextOutgoingId ts).map .transfer)).frames).length -
        (transfersOf (w side).outbox.frames).length = ts.length := by
      rw [hframes, List.length_append, length_stamp]
      omega
    dsimp only [stateAfter, sentId]
    rw [hemitted]
    let d : Link.Delivery := ⟨(w side).session.nextOutgoingId, payload, settled⟩
    refine set ((h side).send (d := d) hcount hv rfl hlimit hsplit hface rfl rfl rfl rfl)
      ((h.back side).congr (h.back side).sameOutward ?_)
    have hreceivers : s'.face.receivers = (w side).session.face.receivers := by
      rw [hface]
      rfl
    have hhandles : s'.face.inputHandles = (w side).session.face.inputHandles := by
      rw [hface]
      rfl
    exact ⟨hreceivers, hhandles, rfl, acceptedIn_subset_add _ _ _⟩

theorem grant {side : Side} (h : Lanes base w) (name : String) (credit : UInt32) :
    Lanes base (w.set side ((w side).act (grantCredit name credit))) := by
  unfold Peer.act
  rcases grantCredit_spec name credit (w side).session (w side).outbox with
    ⟨halt, hrefused⟩ | ⟨r, s', ps, hr, hgranted, hps, hface⟩
  · rw [hrefused]
    exact h.quiet rfl rfl rfl rfl rfl rfl
  · rw [hgranted]
    have hreplies : ∀ p ∈ ps, IsReply r.endpoint.handle p := fun p hp => Or.inl (hps p hp)
    have hout : SameOutward (w side)
        ((w side).become s' ((w side).outbox.add (w side).session.channel ps)) :=
      Lane.sameOutward_replies (h side).sound hr hreplies (by rw [hface]) (by rw [hface])
        (by rw [hface]) (hface ▸ SameHandles.refl _) (w side).session.channel
    refine set ((h side).congr hout (.refl _)) ((h.back side).congr (h.back side).sameOutward ?_)
    exact ⟨by rw [← hface]; rfl, by rw [← hface]; rfl, rfl, acceptedIn_subset_add _ _ _⟩

theorem receive {side : Side} (h : Lanes base w) (name : String) :
    Lanes base (w.set side ((w side).receive name)) := by
  unfold Peer.receive
  cases hresult : Session.receive name (w side).session with
  | error f => exact h.quiet rfl rfl rfl rfl rfl rfl
  | ok result =>
    obtain ⟨message, s'⟩ := result
    obtain ⟨r, hr, rfl, hface⟩ := receive_spec hresult
    have hout : SameOutward (w side) { w side with
        session := s'
        received :=
          (w side).received ++ r.received.head?.toList.map fun m => (name, m.content) } := by
      refine ⟨by rw [hface]; rfl, by rw [hface]; rfl, by rw [hface]; rfl, rfl, rfl, rfl, rfl, ?_⟩
      intro f hf
      exact ((h side).sound f hf).mono (hface ▸ sameHandles_withReceiver hr rfl)
    exact set ((h side).congr hout (.refl _)) ((h.back side).receive hr hface rfl rfl)

theorem collect {side : Side} (h : Lanes base w) (name : String) (id : UInt32) :
    Lanes base (w.set side ((w side).collect name id)) := by
  unfold Peer.collect
  cases hresult : Session.collectOutcome name id (w side).session with
  | error f => exact h.quiet rfl rfl rfl rfl rfl rfl
  | ok result =>
    obtain ⟨outcome, s'⟩ := result
    obtain ⟨v, hv, rfl, hface⟩ := collectOutcome_spec hresult
    refine set ((h side).collect hv hface rfl rfl rfl rfl)
      ((h.back side).congr (h.back side).sameOutward ?_)
    exact ⟨by rw [hface]; rfl, by rw [hface]; rfl, rfl, List.Subset.refl _⟩

theorem evaluate {side : Side} (h : Lanes base w) (now : Nat) :
    Lanes base (w.set side { w side with session := (w side).session.evaluate now }) := by
  refine h.quiet (face_evaluate (fun name v hv => ?_) now) rfl rfl rfl rfl rfl
  obtain ⟨r, -, hpair, -⟩ := (h side).receiver name v hv
  exact hpair.sendTimeout

theorem skip {side : Side} (h : Lanes base w) : Lanes base (w.skip side) := by
  unfold World.skip
  split
  · rename_i channel f rest hhead
    exact h.withFrames (hhead ▸ List.subset_cons_self _ _) (by rw [hhead]; rfl) (by rw [hhead]; rfl)
  · exact h

/-! ### Relaying -/

/-- What relaying the oldest frame of a side leads to: it leaves its outbox, and the other side
gives in return no part of a delivery, and nothing unless it took one. -/
structure Relayed (base : Side → UInt32) (side : Side) (w w' : World) : Prop where
  lanes : Lanes base w'
  own : (w' side).outbox.frames = (w side).outbox.frames.tail
  replies : ∃ replies,
    (w' side.other).outbox.frames = (w side.other).outbox.frames ++ replies ∧
      transfersOf replies = [] ∧ (transfersOf (w side).outbox.frames = [] → replies = [])

variable {side : Side} {channel : UInt16} {rest : List (UInt16 × Performative)}

theorem relay_transfer {t : Transfer} (h : Lanes base w)
    (hhead : (w side).outbox.frames = (channel, .transfer t) :: rest) :
    Relayed base side w ((w.set side ((w side).withFrames rest)).set side.other
      ((w side.other).act (dispatch channel (.transfer t)))) := by
  obtain ⟨s', replies, htaken, hout, hback⟩ := (h side).take (h.back side).sound hhead
  have hact : (w side.other).act (dispatch channel (.transfer t)) = (w side.other).become s'
      ((w side.other).outbox.add (w side.other).session.channel replies) := Peer.act_of_ok htaken
  rw [hact]
  refine ⟨set_set hout ((h.back side).congr hback ⟨rfl, rfl, rfl, ?_⟩), ?_,
    replies.map ((w side.other).session.channel, ·), ?_, ?_, fun hnone => ?_⟩
  · rw [hhead]
    exact List.Subset.refl _
  · rw [World.set_of_ne side.other_ne.symm, World.set_self, hhead]
    rfl
  · rw [World.set_self]
    rfl
  · have htransfers := hback.transfers
    change transfersOf ((w side.other).outbox.frames ++ _) = _ at htransfers
    rw [transfersOf_append] at htransfers
    exact List.append_right_eq_self.1 htransfers
  · rw [hhead] at hnone
    cases hnone

/-- A frame that is taken without any in return. -/
theorem relayed_of_quiet {p : Performative} {s' : Session} (hlanes : Lanes base
      ((w.set side ((w side).withFrames rest)).set side.other
        ((w side.other).become s' (w side.other).outbox)))
    (hhead : (w side).outbox.frames = (channel, p) :: rest) :
    Relayed base side w ((w.set side ((w side).withFrames rest)).set side.other
      ((w side.other).become s' (w side.other).outbox)) := by
  refine ⟨hlanes, ?_, [], ?_, rfl, fun _ => rfl⟩
  · rw [World.set_of_ne side.other_ne.symm, World.set_self, hhead]
    rfl
  · rw [World.set_self, List.append_nil]
    rfl

theorem relay_flow {f : Flow} (h : Lanes base w)
    (hhead : (w side).outbox.frames = (channel, .flow f) :: rest) :
    Relayed base side w ((w.set side ((w side).withFrames rest)).set side.other
      ((w side.other).act (dispatch channel (.flow f)))) := by
  obtain ⟨hdrain, hecho, -, hhandle⟩ :=
    (h side).sound (channel, .flow f) (hhead ▸ List.mem_cons_self)
  -- A flow for a receiving end finds the sending end that it is attached to.
  have hknown : ∀ handle, f.handle = some handle → ∃ name l,
      (w side.other).session.inputHandles.get? handle = some name ∧
        (w side.other).session.links.get? name = some l := by
    intro handle hf
    obtain ⟨name, r, hr, rfl⟩ := hhandle handle hf
    obtain ⟨v, hv⟩ := (h.back side).sender name r hr
    obtain ⟨q, hq, hpair, -⟩ := (h.back side).receiver name v hv
    obtain rfl := Option.some.inj (hr.symm.trans hq)
    obtain ⟨u, hu, -⟩ := senders_eq_some_iff.1 hv
    exact ⟨name, _, hpair.grants, hu⟩
  obtain ⟨s', htaken, hface⟩ := onFlow_spec hdrain hecho hknown (w side.other).outbox
  have hother : (w.set side ((w side).withFrames rest)) side.other = w side.other :=
    World.set_of_ne side.other_ne _ w
  have hskipped : Lanes base (w.set side ((w side).withFrames rest)) :=
    h.withFrames (hhead ▸ List.subset_cons_self _ _) (by rw [hhead]; rfl) (by rw [hhead]; rfl)
  have hact : (w side.other).act (dispatch channel (.flow f)) =
      (w side.other).become s' (w side.other).outbox := Peer.act_of_ok htaken
  rw [hact]
  refine relayed_of_quiet (hskipped.quiet ?_ ?_ ?_ ?_ ?_ ?_) hhead <;> rw [hother]
  · exact hface
  all_goals rfl

theorem relay_disposition {d : Disposition} (h : Lanes base w)
    (hhead : (w side).outbox.frames = (channel, .disposition d) :: rest) :
    Relayed base side w ((w.set side ((w side).withFrames rest)).set side.other
      ((w side.other).act (dispatch channel (.disposition d)))) := by
  obtain ⟨id, rfl⟩ := (h side).sound (channel, .disposition d) (hhead ▸ List.mem_cons_self)
  obtain ⟨s', htaken, hface⟩ :=
    onDisposition_acceptance id (w side.other).session (w side.other).outbox
  have haccepted : acceptedIn (w side).outbox.frames = id :: acceptedIn rest := by
    rw [hhead]
    rfl
  have hframes : transfersOf rest = transfersOf (w side).outbox.frames := by
    rw [hhead]
    rfl
  have hreceivers : s'.face.receivers = (w side.other).session.face.receivers := by rw [hface]
  have hhandles : s'.face.inputHandles = (w side.other).session.face.inputHandles := by rw [hface]
  have hact : (w side.other).act (dispatch channel (.disposition (Link.acceptance id))) =
      (w side.other).become s' (w side.other).outbox := Peer.act_of_ok htaken
  rw [hact]
  refine relayed_of_quiet (set_set ((h side).congr ?_
    ⟨hreceivers, hhandles, rfl, List.Subset.refl _⟩)
    ((h.back side).accept haccepted hface rfl rfl rfl rfl rfl rfl)) hhead
  exact ⟨rfl, rfl, rfl, rfl, rfl, rfl, hframes, fun f hf =>
    (h side).sound f (hhead ▸ List.mem_cons_of_mem _ hf)⟩

/-- Every frame that a side sends is taken by the other, which keeps both lanes. -/
theorem relay (h : Lanes base w) (side : Side) : Relayed base side w (w.relay side) := by
  unfold World.relay
  cases hhead : (w side).outbox.frames with
  | nil => exact ⟨h, by rw [hhead]; rfl, [], (List.append_nil _).symm, rfl, fun _ => rfl⟩
  | cons f rest =>
    obtain ⟨channel, p⟩ := f
    have hsound : IsSound (w side).session.face p :=
      (h side).sound (channel, p) (hhead ▸ List.mem_cons_self)
    have hother : (w.set side ((w side).withFrames rest)) side.other = w side.other :=
      World.set_of_ne side.other_ne _ w
    dsimp only
    rw [relay_of_isSound hsound channel]
    dsimp only
    rw [hother]
    cases p with
    | transfer t => exact h.relay_transfer hhead
    | flow f => exact h.relay_flow hhead
    | disposition d => exact h.relay_disposition hhead
    | _ => exact hsound.elim

/-! ### Runs -/

theorem step (h : Lanes base w) (hcount : ∀ side, (w side).emitted < UInt32.size) (st : Step) :
    Lanes base (w.step st) := by
  cases st with
  | limit side maxFrameSize => exact h.quiet rfl rfl rfl rfl rfl rfl
  | send side now name payload settled => exact h.send (hcount side) now name payload settled
  | grant side name credit => exact h.grant name credit
  | relay side => exact (h.relay side).lanes
  | skip side => exact h.skip
  | receive side name => exact h.receive name
  | collect side name id => exact h.collect name id
  | evaluate side now => exact h.evaluate now

end Lanes

end Amqp.Session
