import Amqp.Connection
import Amqp.Proofs.Session.Calls

/-!
# Carriers of a connection

A carrier takes the frames of sessions in some states of the connection and refuses them in the
others.  Either way it keeps its state and its frame sizes.  A carrier that refuses is not changed
by any session, and a session gets no further than to its first frame
(`Session.Script.leaves_execute_of_refuses`).  What frames of sessions leave of a carrier, a
connection leaves of it that takes such frames of the peer (`keeps_onBegin`,
`keeps_onSessionFrame`).
-/

namespace Amqp

namespace Connection.Carrier

variable {k : Carrier}

/-- Whether a carrier refuses the frames of sessions. -/
def Refuses (k : Carrier) : Prop := k.state.carriesSessions = false

theorem refuses_of_state_eq {state : State} (h : k.state = state)
    (hstate : state.carriesSessions = false) : k.Refuses :=
  (congrArg State.carriesSessions h).trans hstate

theorem carriesSessions_of_live (h : k.state = .openSent ∨ k.state = .opened) :
    k.state.carriesSessions = true := by
  rcases h with h | h <;> rw [h] <;> rfl

theorem carry_of_refuses (h : k.Refuses) (channel : UInt16) (p : Performative) :
    FrameCarrier.carry channel p k =
      .error (.fault (.illegalState (.connectionCannotSend k.state p.name))) k := by
  change carry channel p k = _
  unfold carry
  rw [Action.get_bind]
  unfold Refuses at h
  simp only [h]
  rfl

theorem carry_of_carries (h : k.state.carriesSessions = true) (channel : UInt16)
    (p : Performative) :
    FrameCarrier.carry channel p k =
      transporting (Transport.send channel (.performative p)) k := by
  change carry channel p k = _
  unfold carry
  rw [Action.get_bind]
  simp only [h]
  rfl

/-- What a carrier keeps of itself when it carries frames. -/
def settings (k : Carrier) : State × UInt32 × UInt32 :=
  (k.state, k.maxFrameSize, k.remoteMaxFrameSize)

theorem keeps_transporting {α : Type} {settings : State × UInt32 × UInt32}
    (x : Action Transport α) :
    Action.Keeps (fun k => k.settings = settings) (transporting x) :=
  Action.Keeps.within (J := fun _ => True)
    (fun t _ => by cases x t <;> trivial) (fun _ _ => trivial) fun _ _ h _ => h

/-- What sending a frame keeps, carrying it keeps. -/
theorem keeps_carry_of_send {J : Carrier → Prop} {channel : UInt16} {p : Performative}
    (h : Action.Keeps J (transporting (Transport.send channel (.performative p)))) :
    Action.Keeps J (FrameCarrier.carry channel p) := by
  intro k hk
  cases hcarries : k.state.carriesSessions with
  | false =>
    rw [carry_of_refuses hcarries]
    exact hk
  | true =>
    rw [carry_of_carries hcarries]
    exact h k hk

theorem keeps_carry {settings : State × UInt32 × UInt32} (channel : UInt16) (p : Performative) :
    Action.Keeps (fun k => k.settings = settings)
      (FrameCarrier.carry channel p : Action Carrier Unit) :=
  keeps_carry_of_send (keeps_transporting _)

instance : SizedCarrier Carrier where
  maxFrameSize_carry channel p k :=
    (keeps_carry channel p k rfl).mono fun _ h =>
      congrArg (fun settings => min settings.2.1 settings.2.2) h

end Connection.Carrier

/-- Up to its first frame a session has its way; then a carrier that refuses is as it was. -/
theorem Session.Script.leaves_execute_of_refuses {α : Type} (t : Script α)
    {k : Connection.Carrier} (h : k.Refuses) :
    Action.Leaves (fun y => y = (t.first, k)) (t.execute k) := by
  cases t with
  | done result s => cases result <;> rfl
  | say s p rest =>
    unfold execute
    rw [Connection.Carrier.carry_of_refuses h]
    rfl

namespace Connection

variable {α : Type} {I : Connection → Prop} {c : Connection}

theorem carrier_enter (state : State) (c : Connection) :
    (c.enter state).carrier = { c.carrier with state } := by
  unfold enter
  split_ifs with h
  · rw [← h]
    rfl
  · rfl

theorem transporting_of_ok {x : Action Transport α} {a : α} {t : Transport}
    (h : x c.carrier.transport = .ok a t) :
    transporting x c = .ok a { c with carrier := { c.carrier with transport := t } } := by
  unfold transporting Carrier.transporting Action.within
  dsimp only
  rw [h]

theorem transporting_of_error {x : Action Transport α} {halt : Halt} {t : Transport}
    (h : x c.carrier.transport = .error halt t) :
    transporting x c = .error halt { c with carrier := { c.carrier with transport := t } } := by
  unfold transporting Carrier.transporting Action.within
  dsimp only
  rw [h]

/-- What an action of the transport leaves. -/
theorem leaves_transporting {x : Action Transport α}
    (h : Action.Leaves (fun t => I { c with carrier := { c.carrier with transport := t } })
      (x c.carrier.transport)) : Action.Leaves I (transporting x c) := by
  cases hresult : x c.carrier.transport with
  | ok a t =>
    rw [hresult] at h
    rw [transporting_of_ok hresult]
    exact h
  | error halt t =>
    rw [hresult] at h
    rw [transporting_of_error hresult]
    exact h

theorem transporting_eq_ok {x : Action Transport α} {a : α} {c' : Connection}
    (h : transporting x c = .ok a c') : ∃ t, x c.carrier.transport = .ok a t ∧
      c' = { c with carrier := { c.carrier with transport := t } } := by
  cases hresult : x c.carrier.transport with
  | ok a' t =>
    rw [transporting_of_ok hresult] at h
    cases h
    exact ⟨t, rfl, rfl⟩
  | error halt t =>
    rw [transporting_of_error hresult] at h
    cases h

theorem onSession_eq_ok {channel : UInt16} {x : Session.Acting Carrier α} {a : α}
    {c' : Connection} (h : onSession channel x c = .ok a c') :
    ∃ s s' k, c.sessions.get? channel = some s ∧ x (s, c.carrier) = .ok a (s', k) ∧
      c' = { c with carrier := k, sessions := c.sessions.insert channel s' } := by
  unfold onSession at h
  cases hsession : c.sessions.get? channel with
  | none =>
    rw [hsession] at h
    cases h
  | some s =>
    rw [hsession] at h
    dsimp only at h
    cases hresult : x (s, c.carrier) with
    | ok a' y =>
      rw [hresult] at h
      cases h
      exact ⟨s, y.1, y.2, rfl, hresult, rfl⟩
    | error halt y =>
      rw [hresult] at h
      cases h

theorem onSession_of_ok {channel : UInt16} {x : Session.Acting Carrier α} {s : Session} {a : α}
    {y : Session × Carrier} (hs : c.sessions.get? channel = some s)
    (hx : x (s, c.carrier) = .ok a y) :
    onSession channel x c =
      .ok a { c with carrier := y.2, sessions := c.sessions.insert channel y.1 } := by
  unfold onSession
  rw [hs]
  dsimp only
  rw [hx]

theorem onSession_of_error {channel : UInt16} {x : Session.Acting Carrier α} {s : Session}
    {halt : Halt} {y : Session × Carrier} (hs : c.sessions.get? channel = some s)
    (hx : x (s, c.carrier) = .error halt y) :
    onSession channel x c =
      .error halt { c with carrier := y.2, sessions := c.sessions.insert channel y.1 } := by
  unfold onSession
  rw [hs]
  dsimp only
  rw [hx]

/-- What an action of the session on a channel leaves. -/
theorem leaves_onSession_of_some {channel : UInt16} {x : Session.Acting Carrier α} {s : Session}
    (hs : c.sessions.get? channel = some s)
    (h : Action.Leaves
      (fun y => I { c with carrier := y.2, sessions := c.sessions.insert channel y.1 })
      (x (s, c.carrier))) : Action.Leaves I (onSession channel x c) := by
  unfold onSession
  rw [hs]
  dsimp only
  cases hresult : x (s, c.carrier) with
  | ok a y =>
    rw [hresult] at h
    exact h
  | error halt y =>
    rw [hresult] at h
    exact h

/-- The same when there may be no session on the channel. -/
theorem leaves_onSession {channel : UInt16} {x : Session.Acting Carrier α} (hc : I c)
    (h : ∀ s, c.sessions.get? channel = some s →
      Action.Leaves
        (fun y => I { c with carrier := y.2, sessions := c.sessions.insert channel y.1 })
        (x (s, c.carrier))) : Action.Leaves I (onSession channel x c) := by
  cases hs : c.sessions.get? channel with
  | none =>
    unfold onSession
    rw [hs]
    exact hc
  | some s => exact leaves_onSession_of_some hs (h s hs)

/-! ## Frames of the peer -/

/-- Drops the session on a channel if it is unmapped. -/
def dropUnmapped (channel : UInt16) (c : Connection) : Connection :=
  if (c.sessions.get? channel).any fun s => s.state = .unmapped then c.release channel else c

theorem carrier_dropUnmapped (channel : UInt16) (c : Connection) :
    (c.dropUnmapped channel).carrier = c.carrier := by
  unfold dropUnmapped
  split <;> rfl

/-- Runs an action and drops the session on a channel if it is unmapped then. -/
def dropping (channel : UInt16) (x : Action Connection Unit) : Action Connection Unit := fun c =>
  match x c with
  | .ok _ c => .ok () (c.dropUnmapped channel)
  | .error halt c => .error halt (c.dropUnmapped channel)

theorem leaves_dropping {J : Carrier → Prop} {x : Action Connection Unit}
    (h : Action.Leaves (fun c => J c.carrier) (x c)) (channel : UInt16) :
    Action.Leaves (fun c => J c.carrier) (dropping channel x c) := by
  unfold dropping
  cases hresult : x c with
  | ok a c' =>
    rw [hresult] at h
    exact (congrArg J (carrier_dropUnmapped channel c')).mpr h
  | error halt c' =>
    rw [hresult] at h
    exact (congrArg J (carrier_dropUnmapped channel c')).mpr h

/-- A frame on a channel of the peer that leads nowhere is refused. -/
theorem onSessionFrame_of_unknown {channel : UInt16} (p : Performative)
    (h : ∀ known, c.incomingChannels.get? channel = some known →
      c.sessions.contains known = false) :
    onSessionFrame channel p c = .error (.fault (.unknownChannel channel)) c := by
  unfold onSessionFrame
  rw [Action.get_bind]
  cases hchannel : c.incomingChannels.get? channel with
  | none => rfl
  | some known =>
    simp only [h known hchannel]
    rfl

theorem onSessionFrame_of_known {channel known : UInt16} (p : Performative)
    (hchannel : c.incomingChannels.get? channel = some known)
    (hknown : c.sessions.contains known = true) :
    onSessionFrame channel p c =
      dropping known (onSession known (Session.dispatch channel p)) c := by
  unfold onSessionFrame
  rw [Action.get_bind]
  simp only [hchannel, hknown]
  rfl

/-! ### Open -/

/-- An Open takes the peer's frame size and opens the connection, or it ends the connection. -/
theorem onOpen_cases (v : Open) (c : Connection) :
    (c.state = .openSent ∧ ∃ size c', onOpen v c = .ok () c' ∧
      c'.carrier = { c.carrier with state := .opened, remoteMaxFrameSize := size }) ∨
      ∃ cause, onOpen v c = .error (.fault (.malformed cause)) c := by
  unfold onOpen
  rw [Action.get_bind]
  dsimp only
  split
  · exact Or.inr ⟨_, rfl⟩
  split
  · exact Or.inr ⟨_, rfl⟩
  · rename_i hstate _
    exact Or.inl ⟨not_not.1 hstate, _, _, rfl, carrier_enter .opened _⟩

/-! ### Begin -/

section

variable {channel : UInt16}

theorem onBegin_of_unknown {v : Begin} {known : UInt16} (hremote : v.remoteChannel = some known)
    (hknown : c.sessions.contains known = false) :
    onBegin channel v c = .error (.fault (.unknownChannel known)) c := by
  unfold onBegin
  rw [Action.get_bind, hremote]
  simp only [hknown]
  rfl

theorem onBegin_of_known {v : Begin} {known : UInt16} (hremote : v.remoteChannel = some known)
    (hknown : c.sessions.contains known = true) :
    onBegin channel v c = onSession known (Session.dispatch channel (.begin v))
      { c with incomingChannels := c.incomingChannels.insert channel known } := by
  unfold onBegin
  rw [Action.get_bind, hremote]
  simp only [hknown]
  rfl

theorem onBegin_of_full {v : Begin} {f : Fault} (hremote : v.remoteChannel = none)
    (hfull : c.freeChannel = .error f) : onBegin channel v c = .error (.fault f) c := by
  unfold onBegin
  rw [Action.get_bind, hremote, hfull]
  rfl

/-- What a connection becomes when a new session has answered the peer's Begin. -/
def started (channel fresh : UInt16) (c : Connection) :
    EStateM.Result Halt (Session × Carrier) Unit → EStateM.Result Halt Connection Unit
  | .ok _ y =>
    .ok ()
      { c with
        carrier := y.2
        incomingChannels := c.incomingChannels.insert channel fresh
        sessions := c.sessions.insert fresh y.1 }
  | .error halt y => .error halt { c with carrier := y.2 }

/-- A Begin of the peer starts a session on a free channel. -/
theorem onBegin_of_fresh {v : Begin} {fresh : UInt16} (hremote : v.remoteChannel = none)
    (hfresh : c.freeChannel = .ok fresh) :
    onBegin channel v c = c.started channel fresh
      (Session.onBegin channel v
        (Session.create (c.sessionName fresh) fresh c.settings.session c.settings.link,
          c.carrier)) := by
  unfold onBegin
  rw [Action.get_bind, hremote, hfresh]
  dsimp only
  rw [Action.ofExcept_ok_bind]
  cases hbegun : Session.onBegin channel v
      (Session.create (c.sessionName fresh) fresh c.settings.session c.settings.link,
        c.carrier) with
  | ok _ y =>
    have hwithin : Action.within carrier (fun carrier c => { c with carrier })
        (Session.ofBegin (c.sessionName fresh) fresh channel v c.settings.session
          c.settings.link) c = .ok y.1 { c with carrier := y.2 } := by
      unfold Action.within Session.ofBegin
      rw [hbegun]
    rw [Action.bind_of_ok hwithin]
    rfl
  | error halt y =>
    have hwithin : Action.within carrier (fun carrier c => { c with carrier })
        (Session.ofBegin (c.sessionName fresh) fresh channel v c.settings.session
          c.settings.link) c = .error halt { c with carrier := y.2 } := by
      unfold Action.within Session.ofBegin
      rw [hbegun]
    exact Action.bind_of_error hwithin

end

/-! ### What frames leave of the carrier -/

section

variable {J : Carrier → Prop}
  (hJ : ∀ channel p, p.Suits c.maxFrameSize → Action.Keeps J (FrameCarrier.carry channel p))
  (hc : J c.carrier)

include hJ hc

/-- What the frames of a session that follows scripts leave of the carrier, the session leaves. -/
theorem leaves_onSession_of_scripted {steady : Bool} {x : Session.Acting Carrier α}
    (hx : ∀ s, Session.Scripted c.maxFrameSize steady x s) (channel : UInt16) :
    Action.Leaves (fun c => J c.carrier) (onSession channel x c) := by
  refine leaves_onSession hc fun s _ => ?_
  obtain ⟨t, -, ht, hexecute⟩ := hx s
  rw [hexecute c.carrier rfl]
  exact Session.Script.leaves_execute hJ ht hc

theorem leaves_onBegin (channel : UInt16) (v : Begin) :
    Action.Leaves (fun c => J c.carrier) (onBegin channel v c) := by
  cases hremote : v.remoteChannel with
  | some known =>
    cases hknown : c.sessions.contains known with
    | false =>
      rw [onBegin_of_unknown hremote hknown]
      exact hc
    | true =>
      rw [onBegin_of_known hremote hknown]
      exact leaves_onSession_of_scripted
        (c := { c with incomingChannels := c.incomingChannels.insert channel known }) hJ hc
        (fun s => Session.scripted_dispatch channel _) known
  | none =>
    cases hfresh : c.freeChannel with
    | error f =>
      rw [onBegin_of_full hremote hfresh]
      exact hc
    | ok fresh =>
      obtain ⟨t, -, ht, hexecute⟩ := Session.scripted_onBegin (κ := Carrier) (m := c.maxFrameSize)
        channel v
        (s := Session.create (c.sessionName fresh) fresh c.settings.session c.settings.link)
      have hkept := Session.Script.leaves_execute hJ ht hc
      rw [onBegin_of_fresh hremote hfresh, hexecute c.carrier rfl]
      generalize t.execute c.carrier = begun at hkept ⊢
      cases begun <;> exact hkept

theorem leaves_onSessionFrame (channel : UInt16) (p : Performative) :
    Action.Leaves (fun c => J c.carrier) (onSessionFrame channel p c) := by
  by_cases h : ∃ known, c.incomingChannels.get? channel = some known ∧
      c.sessions.contains known = true
  · obtain ⟨known, hchannel, hknown⟩ := h
    rw [onSessionFrame_of_known p hchannel hknown]
    exact leaves_dropping
      (leaves_onSession_of_scripted hJ hc (fun s => Session.scripted_dispatch channel p) known)
      known
  · have hunknown : ∀ known, c.incomingChannels.get? channel = some known →
        c.sessions.contains known = false := fun known hchannel =>
      Bool.eq_false_iff.2 fun hknown => h ⟨known, hchannel, hknown⟩
    rw [onSessionFrame_of_unknown p hunknown]
    exact hc

end

section

variable {J : Carrier → Prop}
  (hJ : ∀ channel p, p.isOfSession = true → Action.Keeps J (FrameCarrier.carry channel p))

include hJ

theorem keeps_onSession {steady : Bool} {x : Session.Acting Carrier α}
    (hx : ∀ {m} s, Session.Scripted m steady x s) (channel : UInt16) :
    Action.Keeps (fun c => J c.carrier) (onSession channel x) := fun _ hc =>
  leaves_onSession_of_scripted (fun channel p hp => hJ channel p hp.isOfSession) hc hx channel

theorem keeps_onBegin (channel : UInt16) (v : Begin) :
    Action.Keeps (fun c => J c.carrier) (onBegin channel v) := fun _ hc =>
  leaves_onBegin (fun channel p hp => hJ channel p hp.isOfSession) hc channel v

theorem keeps_onSessionFrame (channel : UInt16) (p : Performative) :
    Action.Keeps (fun c => J c.carrier) (onSessionFrame channel p) := fun _ hc =>
  leaves_onSessionFrame (fun channel p hp => hJ channel p hp.isOfSession) hc channel p

end

end Connection

end Amqp
