import Amqp.Proofs.Connection.Calls

/-!
# Frames that are taken in silence

Whether a connection writes anything when it takes a frame of a session does not depend on its
carrier: the action is `Mute`, and then it comes to the same on all carriers and leaves them as they
are; or it is `Loud`, and then it writes where frames are accepted, and fails where they are refused
with a fault that ends the connection (`mute_or_loud_dispatch`).  So a connection that has sent
Close takes exactly those frames of the peer that it would have taken in silence before, and the
first other one ends it (`splits_take`).
-/

namespace Amqp.Connection

/-- A carrier that accepts the frames of sessions and writes them at once. -/
structure Carrier.Accepts (k : Carrier) : Prop where
  carries : k.state.carriesSessions = true
  isWriting : k.transport.IsWriting

/-- The octets that a carrier has written. -/
def Carrier.written (k : Carrier) : Bytes := k.transport.stream.written

/-- A carrier that has written more than a number of octets, and accepts more. -/
structure Carrier.Exceeds (n : Nat) (k : Carrier) : Prop where
  accepts : k.Accepts
  lt : n < k.written.length

theorem Carrier.Accepts.carry {k : Carrier} (hk : k.Accepts) (channel : UInt16)
    (p : Performative) :
    ∃ k', FrameCarrier.carry channel p k = .ok () k' ∧ k'.settings = k.settings ∧
      Exceeds k.written.length k' := by
  obtain ⟨writes, taken, hwrite, hsucceeds, htaken⟩ :=
    Transport.write_eq hk.isWriting ((Frame.performative p).encode channel)
  rw [carry_of_carries hk.carries]
  unfold transporting Action.within Transport.send
  rw [hwrite]
  refine ⟨_, rfl, rfl, ⟨hk.carries, hk.isWriting.isOpen, hsucceeds⟩, ?_⟩
  have hlength := congrArg List.length htaken
  rw [List.length_append, Frame.length_encode] at hlength
  change k.written.length < taken.reverse.flatten.length
  rw [hlength, frameHeaderSize]
  unfold written
  omega

theorem Carrier.keeps_exceeds_carry {n : Nat} (channel : UInt16) (p : Performative)
    (_ : p.isOfSession = true) : Action.Keeps (Exceeds n) (FrameCarrier.carry channel p) := by
  intro k hk
  obtain ⟨k', hcarry, -, hk'⟩ := hk.accepts.carry channel p
  rw [hcarry]
  exact ⟨hk'.accepts, Nat.lt_trans hk.lt hk'.lt⟩

/-! ## Mute and loud actions -/

/-- What an action comes to. -/
def outcome (r : Except Halt Unit) (c : Connection) : EStateM.Result Halt Connection Unit :=
  match r with
  | .ok () => .ok () c
  | .error halt => .error halt c

/-- Whether an action does the same on all carriers of a size, and leaves them as they are. -/
def Mute (x : Action Connection Unit) (size : UInt32) (c : Connection) : Prop :=
  ∃ (r : Except Halt Unit) (c' : Connection), ∀ k : Carrier, FrameCarrier.maxFrameSize k = size →
    x { c with carrier := k } = outcome r { c' with carrier := k }

/-- An action that writes where frames of sessions are accepted, and fails where they are
refused. -/
structure Loud (x : Action Connection Unit) (size : UInt32) (c : Connection) : Prop where
  refused : ∀ k : Carrier, k.Refuses → FrameCarrier.maxFrameSize k = size →
    ∃ f c', x { c with carrier := k } = .error (.fault f) c' ∧ f.isSessionLocal = false
  accepted : ∀ k : Carrier, k.Accepts → FrameCarrier.maxFrameSize k = size →
    Action.Leaves (fun c' => k.written.length < c'.carrier.written.length)
      (x { c with carrier := k })

section

variable {size : UInt32} {c : Connection} {channel : UInt16}

theorem execute_say_of_refuses {α : Type} {s : Session} {p : Performative}
    {rest : Session.Script α} {k : Carrier} (hk : k.Refuses) :
    (Session.Script.say s p rest).execute k =
      .error (.fault (.illegalState (.connectionCannotSend k.state p.name))) (s, k) := by
  unfold Session.Script.execute
  rw [Carrier.carry_of_refuses hk]

theorem leaves_execute_say {α : Type} {s : Session} {p : Performative}
    {rest : Session.Script α} (ht : (Session.Script.say s p rest).Suits size) {k : Carrier}
    (hk : k.Accepts) :
    Action.Leaves (fun y => k.written.length < y.2.written.length)
      ((Session.Script.say s p rest).execute k) := by
  obtain ⟨k', hcarry, -, hfirst⟩ := hk.carry s.channel p
  unfold Session.Script.execute
  rw [hcarry]
  have hrest := rest.leaves_execute
    (fun channel p hp => Carrier.keeps_exceeds_carry channel p hp.isOfSession) ht.2 hfirst
  exact hrest.mono fun _ h => h.lt

/-- A session that follows a script that is at its end. -/
theorem onSession_done {x : Session.Acting Carrier Unit} {s s' : Session}
    {r : Except Halt Unit} (hs : c.sessions.get? channel = some s)
    (hx : x (s, c.carrier) = (Session.Script.done r s').execute c.carrier) :
    onSession channel x c = outcome r { c with sessions := c.sessions.insert channel s' } := by
  unfold onSession
  rw [hs]
  dsimp only
  rw [hx]
  cases r <;> rfl

/-- A session that follows scripts is silent or not before its carrier is known. -/
theorem mute_or_loud_onSession {steady : Bool} {x : Session.Acting Carrier Unit}
    (hx : ∀ s, Session.Scripted size steady x s) (channel : UInt16) (c : Connection) :
    Mute (onSession channel x) size c ∨ Loud (onSession channel x) size c := by
  cases hs : c.sessions.get? channel with
  | none =>
    refine Or.inl ⟨.error (.fault (.unknownChannel channel)), c, fun k _ => ?_⟩
    unfold onSession
    rw [hs]
    rfl
  | some s =>
    obtain ⟨t, -, ht, hexecute⟩ := hx s
    cases t with
    | done r s' =>
      exact Or.inl ⟨r, { c with sessions := c.sessions.insert channel s' }, fun k hk =>
        onSession_done (c := { c with carrier := k }) hs (hexecute k hk)⟩
    | say s' p rest =>
      refine Or.inr ⟨fun k hk hsize => ?_, fun k hk hsize => ?_⟩
      · have hrefused := (hexecute k hsize).trans (execute_say_of_refuses hk)
        exact ⟨_, _, onSession_of_error (c := { c with carrier := k }) hs hrefused, rfl⟩
      · refine leaves_onSession_of_some (c := { c with carrier := k }) hs ?_
        rw [hexecute k hsize]
        exact leaves_execute_say ht hk

/-! ### Frames of sessions -/

theorem dropUnmapped_with (channel : UInt16) (c : Connection) (k : Carrier) :
    dropUnmapped channel { c with carrier := k } =
      { c.dropUnmapped channel with carrier := k } := by
  unfold dropUnmapped
  dsimp only
  split <;> rfl

theorem Mute.dropping {x : Action Connection Unit} (h : Mute x size c) (channel : UInt16) :
    Mute (dropping channel x) size c := by
  obtain ⟨r, c', hx⟩ := h
  refine ⟨r, c'.dropUnmapped channel, fun k hk => ?_⟩
  unfold Connection.dropping
  rw [hx k hk]
  cases r <;> exact congrArg _ (dropUnmapped_with channel c' k)

theorem Loud.dropping {x : Action Connection Unit} (h : Loud x size c) (channel : UInt16) :
    Loud (dropping channel x) size c := by
  refine ⟨fun k hk hsize => ?_, fun k hk hsize => ?_⟩
  · obtain ⟨f, c', hx, hf⟩ := h.refused k hk hsize
    refine ⟨f, c'.dropUnmapped channel, ?_, hf⟩
    unfold Connection.dropping
    rw [hx]
  · exact leaves_dropping (J := fun k' => k.written.length < k'.written.length)
      (h.accepted k hk hsize) channel

/-- Actions that are the same on all carriers are mute and loud together. -/
theorem mute_or_loud_of_eq {x y : Action Connection Unit} {d : Connection}
    (hxy : ∀ k : Carrier, x { c with carrier := k } = y { d with carrier := k })
    (h : Mute y size d ∨ Loud y size d) : Mute x size c ∨ Loud x size c := by
  rcases h with ⟨r, d', hy⟩ | hloud
  · exact Or.inl ⟨r, d', fun k hk => (hxy k).trans (hy k hk)⟩
  · refine Or.inr ⟨fun k hk hsize => ?_, fun k hk hsize => ?_⟩
    · rw [hxy k]
      exact hloud.refused k hk hsize
    · rw [hxy k]
      exact hloud.accepted k hk hsize

theorem mute_or_loud_onSessionFrame (channel : UInt16) (p : Performative) (size : UInt32)
    (c : Connection) :
    Mute (onSessionFrame channel p) size c ∨ Loud (onSessionFrame channel p) size c := by
  by_cases h : ∃ known, c.incomingChannels.get? channel = some known ∧
      c.sessions.contains known = true
  · obtain ⟨known, hchannel, hknown⟩ := h
    have hsession := mute_or_loud_onSession
      (fun s => Session.scripted_dispatch (m := size) (s := s) channel p) known c
    exact mute_or_loud_of_eq
      (fun k => onSessionFrame_of_known (c := { c with carrier := k }) p hchannel hknown)
      (hsession.imp (Mute.dropping · known) (Loud.dropping · known))
  · have hunknown : ∀ known, c.incomingChannels.get? channel = some known →
        c.sessions.contains known = false := fun known hchannel =>
      Bool.eq_false_iff.2 fun hknown => h ⟨known, hchannel, hknown⟩
    exact Or.inl ⟨.error (.fault (.unknownChannel channel)), c, fun k _ =>
      onSessionFrame_of_unknown (c := { c with carrier := k }) p hunknown⟩

/-! ### Begin -/

/-- What a new session does by a script is settled before its carrier is known. -/
theorem mute_or_loud_started {x : Action Connection Unit} {t : Session.Script Unit}
    (ht : t.Suits size) (channel fresh : UInt16)
    (hx : ∀ k : Carrier, FrameCarrier.maxFrameSize k = size →
      x { c with carrier := k } = started channel fresh { c with carrier := k } (t.execute k)) :
    Mute x size c ∨ Loud x size c := by
  cases t with
  | done r s =>
    cases r with
    | error halt => exact Or.inl ⟨.error halt, c, hx⟩
    | ok _ =>
      exact Or.inl ⟨.ok (),
        { c with
          incomingChannels := c.incomingChannels.insert channel fresh
          sessions := c.sessions.insert fresh s }, hx⟩
  | say s p rest =>
    refine Or.inr ⟨fun k hk hsize => ?_, fun k hk hsize => ?_⟩
    · rw [hx k hsize, execute_say_of_refuses hk]
      exact ⟨_, _, rfl, rfl⟩
    · have hsaid := leaves_execute_say ht hk
      rw [hx k hsize]
      generalize (Session.Script.say s p rest).execute k = said at hsaid ⊢
      cases said <;> exact hsaid

theorem mute_or_loud_onBegin (channel : UInt16) (v : Begin) (size : UInt32) (c : Connection) :
    Mute (onBegin channel v) size c ∨ Loud (onBegin channel v) size c := by
  cases hremote : v.remoteChannel with
  | some known =>
    cases hknown : c.sessions.contains known with
    | false =>
      exact Or.inl ⟨.error (.fault (.unknownChannel known)), c, fun k _ =>
        onBegin_of_unknown (c := { c with carrier := k }) hremote hknown⟩
    | true =>
      have hsession := mute_or_loud_onSession
        (fun s => Session.scripted_dispatch (m := size) (s := s) channel (.begin v)) known
        { c with incomingChannels := c.incomingChannels.insert channel known }
      exact mute_or_loud_of_eq
        (fun k => onBegin_of_known (c := { c with carrier := k }) hremote hknown) hsession
  | none =>
    cases hfresh : c.freeChannel with
    | error f =>
      exact Or.inl ⟨.error (.fault f), c, fun k _ =>
        onBegin_of_full (c := { c with carrier := k }) hremote hfresh⟩
    | ok fresh =>
      obtain ⟨t, -, ht, hexecute⟩ := Session.scripted_onBegin (κ := Carrier) (m := size) channel v
        (s := Session.create (c.sessionName fresh) fresh c.settings.session c.settings.link)
      refine mute_or_loud_started ht channel fresh fun k hk => ?_
      rw [← hexecute k hk]
      exact onBegin_of_fresh (c := { c with carrier := k }) hremote hfresh

theorem mute_or_loud_dispatch {p : Performative} (hp : p.isOfSession = true) (channel : UInt16)
    (size : UInt32) (c : Connection) :
    Mute (dispatch channel p) size c ∨ Loud (dispatch channel p) size c := by
  cases p with
  | openFrame v | close v => cases hp
  | begin v => exact mute_or_loud_onBegin channel v size c
  | _ => exact mute_or_loud_onSessionFrame channel _ size c

end

/-! ## Frames on a live connection and on a closing one -/

section

variable {x : Action Connection Unit} {spares : Fault → Bool} {c c' : Connection} {k : Carrier}

theorem guarded_of_ok (h : x c = .ok () c') : guarded spares x c = .ok () c' := by
  unfold guarded
  rw [h]

theorem guarded_of_spared {f : Fault} (h : x c = .error (.fault f) c') (hf : spares f = true) :
    guarded spares x c = .ok () c' := by
  unfold guarded
  rw [h]
  simp only [hf, if_true]

theorem guarded_of_fault {f : Fault} (h : x c = .error (.fault f) c') (hf : spares f = false) :
    ∃ halt c', guarded spares x c = .error halt c' := by
  unfold guarded
  rw [h]
  simp only [hf, Bool.false_eq_true, if_false]
  cases abort f c' with
  | ok _ c'' => exact ⟨_, _, rfl⟩
  | error halt c'' => exact ⟨_, _, rfl⟩

theorem guarded_of_stalled (h : x c = .error .stalled c') :
    guarded spares x c = .error .stalled c' := by
  unfold guarded
  rw [h]

/-- A guarded action gets to its end where the action itself has ended, or has stopped on a fault
that is passed over. -/
theorem guarded_eq_ok (h : guarded spares x c = .ok () c') :
    x c = .ok () c' ∨ ∃ f, x c = .error (.fault f) c' ∧ spares f = true := by
  cases hresult : x c with
  | ok _ d =>
    cases (guarded_of_ok hresult).symm.trans h
    exact Or.inl rfl
  | error halt d =>
    cases halt with
    | stalled => cases (guarded_of_stalled hresult).symm.trans h
    | fault f =>
      cases hf : spares f with
      | false =>
        obtain ⟨halt, d', herror⟩ := guarded_of_fault hresult hf
        cases herror.symm.trans h
      | true =>
        cases (guarded_of_spared hresult hf).symm.trans h
        exact Or.inr ⟨f, rfl, hf⟩

/-- What a guarded action leaves at its end, the action itself leaves. -/
theorem leaves_of_guarded_eq_ok {I : Connection → Prop} (hx : Action.Leaves I (x c))
    (h : guarded spares x c = .ok () c') : I c' := by
  rcases guarded_eq_ok h with hresult | ⟨f, hresult, -⟩ <;> rw [hresult] at hx <;> exact hx

/-- Takes a frame that has been received.  A fault that concerns a session only is passed over. -/
def take (channel : UInt16) : Frame → Action Connection Unit
  | .heartbeat => pure ()
  | .performative p => guarded Fault.isSessionLocal (dispatch channel p)

/-- Whether a frame is the Close of the peer. -/
def isClose : Frame → Bool
  | .performative (.close _) => true
  | _ => false

/-- Whether an action gets to its end and leaves the carrier as it is. -/
def Silent (x : Action Connection Unit) (c c' : Connection) : Prop :=
  x c = .ok () c' ∧ c'.carrier = c.carrier

/-- Whether an action is silent with the carrier of a live connection, and the same with one that
refuses frames; or it is not silent with the one, and fails with the other. -/
def Splits (x : Action Connection Unit) (c : Connection) (k : Carrier) : Prop :=
  (∃ c', Silent x c c' ∧ x { c with carrier := k } = .ok () { c' with carrier := k }) ∨
    (∀ c', ¬Silent x c c') ∧ ∃ halt c', x { c with carrier := k } = .error halt c'

theorem Mute.splits_guarded (h : Mute x (FrameCarrier.maxFrameSize c.carrier) c)
    (hsize : FrameCarrier.maxFrameSize k = FrameCarrier.maxFrameSize c.carrier) :
    Splits (guarded spares x) c k := by
  obtain ⟨r, c', hx⟩ := h
  have hlive := hx c.carrier rfl
  have hclosing := hx k hsize
  cases r with
  | ok _ =>
    exact Or.inl ⟨{ c' with carrier := c.carrier }, ⟨guarded_of_ok hlive, rfl⟩,
      guarded_of_ok hclosing⟩
  | error halt =>
    cases halt with
    | stalled =>
      refine Or.inr ⟨fun d hd => ?_, _, _, guarded_of_stalled hclosing⟩
      cases (guarded_of_stalled hlive).symm.trans hd.1
    | fault f =>
      cases hf : spares f with
      | true =>
        exact Or.inl ⟨{ c' with carrier := c.carrier }, ⟨guarded_of_spared hlive hf, rfl⟩,
          guarded_of_spared hclosing hf⟩
      | false =>
        obtain ⟨halt, d, herror⟩ := guarded_of_fault hlive hf
        refine Or.inr ⟨fun d' hd => ?_, guarded_of_fault hclosing hf⟩
        cases herror.symm.trans hd.1

theorem Loud.splits_guarded (h : Loud x (FrameCarrier.maxFrameSize c.carrier) c)
    (hc : c.carrier.Accepts) (hk : k.Refuses)
    (hsize : FrameCarrier.maxFrameSize k = FrameCarrier.maxFrameSize c.carrier) :
    Splits (guarded Fault.isSessionLocal x) c k := by
  obtain ⟨f, c', hrefused, hf⟩ := h.refused k hk hsize
  refine Or.inr ⟨fun d hd => ?_, guarded_of_fault hrefused hf⟩
  have hwritten := leaves_of_guarded_eq_ok (h.accepted c.carrier hc rfl) hd.1
  rw [hd.2] at hwritten
  exact Nat.lt_irrefl _ hwritten

/-- An Open is never taken in silence. -/
theorem splits_guarded_onOpen (v : Open) (hk : k.Refuses) :
    Splits (guarded Fault.isSessionLocal (onOpen v)) c k := by
  refine Or.inr ⟨fun d hd => ?_, ?_⟩
  · rcases onOpen_cases v c with ⟨hstate, size, c', hopen, hcarrier⟩ | ⟨cause, hopen⟩
    · cases (guarded_of_ok hopen).symm.trans hd.1
      have hopened : State.opened = c.state := congrArg Carrier.state (hcarrier.symm.trans hd.2)
      cases hopened.trans hstate
    · have hlocal : Fault.isSessionLocal (.malformed cause) = false := rfl
      obtain ⟨halt, d', herror⟩ := guarded_of_fault hopen hlocal
      cases herror.symm.trans hd.1
  · rcases onOpen_cases v { c with carrier := k } with ⟨hstate, -⟩ | ⟨cause, hopen⟩
    · have hrefuses : State.openSent.carriesSessions = false := hstate ▸ hk
      cases hrefuses
    · exact guarded_of_fault hopen rfl

/-- Every frame but the peer's Close is taken in silence by both connections or by none. -/
theorem splits_take (channel : UInt16) {frame : Frame} (hframe : isClose frame = false)
    (hc : c.carrier.Accepts) (hk : k.Refuses)
    (hsize : FrameCarrier.maxFrameSize k = FrameCarrier.maxFrameSize c.carrier) :
    Splits (take channel frame) c k := by
  have hsession (p : Performative) (hp : p.isOfSession = true) :
      Splits (take channel (.performative p)) c k := by
    rcases mute_or_loud_dispatch hp channel (FrameCarrier.maxFrameSize c.carrier) c with h | h
    · exact h.splits_guarded hsize
    · exact h.splits_guarded hc hk hsize
  cases frame with
  | heartbeat => exact Or.inl ⟨c, ⟨rfl, rfl⟩, rfl⟩
  | performative p =>
    cases p with
    | openFrame v => exact splits_guarded_onOpen v hk
    | close v => cases hframe
    | _ => exact hsession _ rfl

end

end Amqp.Connection
