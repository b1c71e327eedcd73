import Amqp.Proofs.Connection.Calls

/-!
# Connections that have ended

However a connection comes to its end, it has given up its transport by then, and no session of it
is mapped or in a handshake (`IsDown`, `stable_sound`).  From there on no call changes its carrier,
neither its state nor its transport, and no session that it holds begins (`Rests`, `stable_rests`).
-/

namespace Amqp

/-- Whether a session is over or has not begun. -/
def Session.IsIdle (s : Session) : Prop := s.state = .discarding ∨ s.state = .unmapped

namespace Connection

variable {c : Connection}

/-- Whether all sessions of a connection are over or have not begun. -/
def IsIdle (c : Connection) : Prop := ∀ channel s, c.sessions.get? channel = some s → s.IsIdle

/-- A connection that has given up its transport and its sessions. -/
structure IsDown (c : Connection) : Prop where
  isClosed : c.carrier.transport.IsClosed
  isIdle : c.IsIdle

/-! ## Idle sessions -/

theorem isIdle_insert {channel : UInt16} {s : Session} (hc : c.IsIdle) (hs : s.IsIdle)
    (k : Carrier) :
    IsIdle { c with carrier := k, sessions := c.sessions.insert channel s } := by
  intro other s' h
  rw [Table.get?_insert] at h
  split_ifs at h
  · cases h
    exact hs
  · exact hc other s' h

theorem addSession_cases {settings : Option Settings.Session} {result : UInt16 × Connection}
    (h : c.addSession settings = .ok result) :
    ∃ channel s, c.freeChannel = .ok channel ∧ s.channel = channel ∧ s.state = .unmapped ∧
      result.2 = { c with sessions := c.sessions.insert channel s } := by
  unfold addSession at h
  cases hchannel : c.freeChannel with
  | error f =>
    rw [hchannel] at h
    cases h
  | ok channel =>
    rw [hchannel] at h
    cases h
    exact ⟨channel, _, rfl, rfl, rfl, rfl⟩

theorem isIdle_release (hc : c.IsIdle) (channel : UInt16) : (c.release channel).IsIdle := by
  intro other s h
  have herase : (c.release channel).sessions.get? other =
      if other = channel then none else c.sessions.get? other := Table.get?_erase _ _ _
  rw [herase] at h
  split_ifs at h
  exact hc other s h

theorem isIdle_evaluate (hc : c.IsIdle) : c.evaluate.IsIdle := by
  intro channel s h
  have hmap : c.evaluate.sessions.get? channel =
      (c.sessions.get? channel).map (Session.evaluate c.now) := Table.get?_mapValues _ _ _
  rw [hmap] at h
  obtain ⟨s', hs', rfl⟩ := Option.map_eq_some_iff.1 h
  exact hc channel s' hs'

/-- At the end of the connection every session is discarded that has begun. -/
theorem isIdle_followConnection (s : Session) : (s.followConnection .ended).IsIdle := by
  unfold Session.followConnection
  dsimp only
  by_cases h : s.IsIdle
  · rw [if_neg fun hover => h.elim hover.2.1 hover.2.2]
    exact h
  · rw [if_pos ⟨Or.inr rfl, not_or.1 h⟩]
    exact Or.inl rfl

/-! ## After the end -/

/-- A connection that has ended, with a carrier that is not changed any more. -/
structure Rests (k : Carrier) (c : Connection) : Prop where
  carrier_eq : c.carrier = k
  state_eq : c.state = .ended
  isDown : c.IsDown

section

variable {k : Carrier}

theorem Rests.refuses (h : Rests k c) : c.carrier.Refuses :=
  Carrier.refuses_of_state_eq h.state_eq rfl

/-- What happens to the sessions alone leaves a connection at rest. -/
theorem Rests.of_isIdle {c' : Connection} (h : Rests k c) (hcarrier : c'.carrier = c.carrier)
    (hidle : c'.IsIdle) : Rests k c' :=
  ⟨hcarrier.trans h.carrier_eq, (congrArg Carrier.state hcarrier).trans h.state_eq,
    (congrArg Carrier.transport hcarrier).symm ▸ h.isDown.isClosed, hidle⟩

theorem rests_terminate (h : Rests k c) : Rests k c.terminate := by
  have hclose := h.isDown.isClosed.close_eq
  have hsame : c.terminate = c := by
    unfold terminate enter
    rw [if_pos h.state_eq]
    dsimp only
    rw [hclose]
  rw [hsame]
  exact h

theorem rests_abort (cause : Fault) : Action.Keeps (Rests k) (abort cause) := by
  intro c hc
  have hsilent : c.carrier.transport.isConnected = false := hc.isDown.isClosed.isConnected
  unfold abort
  rw [Action.get_bind]
  simp only [hsilent]
  exact rests_terminate hc

theorem rests_poll (wait : Option Nat) : Action.Keeps (Rests k) (poll wait) := by
  intro c hc
  have hreceive := receive_of_isClosed hc.isDown.isClosed wait
  refine leaves_poll ?_ ?_ rests_abort
  · rw [hreceive]
    exact hc
  · intro channel p c' hreceived _
    rw [hreceive] at hreceived
    cases hreceived

theorem rests_openUp (wait : Patience) : Action.Keeps (Rests k) (openUp wait) := by
  intro c hc
  have hstate : c.state ≠ .start := by
    rw [hc.state_eq]
    decide
  rw [openUp_of_ne_start hstate]
  exact hc

theorem rests_close (error : Option ErrorInfo) (wait : Patience) :
    Action.Keeps (Rests k) (close error wait) := by
  intro c hc
  unfold close
  rw [Action.get_bind, hc.state_eq]
  exact hc

/-- A session that is called gets no frame through, and keeps its state. -/
theorem rests_onSession (channel : UInt16) (call : Session.Call) :
    Action.Keeps (Rests k) (onSession channel call.perform) := by
  intro c hc
  refine leaves_onSession hc fun s hs => ?_
  obtain ⟨t, hfirst, -, hexecute⟩ :=
    Session.scripted_perform (κ := Carrier) (m := FrameCarrier.maxFrameSize c.carrier) call s
  rw [hexecute c.carrier rfl]
  refine (t.leaves_execute_of_refuses hc.refuses).mono ?_
  rintro _ rfl
  have hidle : t.first.IsIdle := by
    unfold Session.IsIdle
    rw [hfirst rfl]
    exact hc.isDown.isIdle channel s hs
  exact hc.of_isIdle rfl (isIdle_insert hc.isDown.isIdle hidle c.carrier)

/-- No call changes the carrier of a connection that has ended, or lets a session begin. -/
theorem stable_rests (k : Carrier) : Stable (Rests k) where
  openUp := rests_openUp
  close := rests_close
  poll := rests_poll
  onSession := rests_onSession
  addSession hc h := by
    obtain ⟨channel, s, -, -, hs, hresult⟩ := addSession_cases h
    rw [hresult]
    exact hc.of_isIdle rfl (isIdle_insert hc.isDown.isIdle (Or.inr hs) _)
  release channel _ hc := hc.of_isIdle rfl (isIdle_release hc.isDown.isIdle channel)
  evaluate _ hc := hc.of_isIdle rfl (isIdle_evaluate hc.isDown.isIdle)

end

/-! ## The way to the end -/

/-- Whether a connection is down if it has ended. -/
def Sound (c : Connection) : Prop := c.state = .ended → c.IsDown

/-- Whether a connection has not ended. -/
def IsLive (c : Connection) : Prop := c.state ≠ .ended

theorem IsLive.sound (h : c.IsLive) : c.Sound := fun hended => absurd hended h

theorem Rests.sound {k : Carrier} (h : Rests k c) : c.Sound := fun _ => h.isDown

/-- An action leaves a connection sound if it does so before the end, and leaves it at rest after
the end. -/
theorem keeps_sound {α : Type} {x : Action Connection α}
    (hrests : ∀ k, Action.Keeps (Rests k) x)
    (hlive : ∀ c, IsLive c → Action.Leaves Sound (x c)) : Action.Keeps Sound x := by
  intro c hc
  by_cases h : c.IsLive
  · exact hlive c h
  · have hended := not_not.1 h
    exact (hrests c.carrier c ⟨rfl, hended, hc hended⟩).mono fun _ => Rests.sound

theorem sound_terminate (c : Connection) (h : c.Sound) : c.terminate.Sound := by
  intro _
  refine ⟨Transport.isClosed_close _, ?_⟩
  unfold terminate enter
  dsimp only
  split_ifs with hstate
  · exact (h hstate).isIdle
  · intro channel s hs
    rw [Table.get?_mapValues] at hs
    obtain ⟨s', -, rfl⟩ := Option.map_eq_some_iff.1 hs
    exact isIdle_followConnection s'

/-! ### Steps that do not end the connection -/

theorem state_enter (state : State) (c : Connection) : (c.enter state).state = state := by
  unfold enter
  split_ifs with h
  · exact h
  · rfl

theorem state_terminate (c : Connection) : c.terminate.state = .ended :=
  congrArg Carrier.state (carrier_enter .ended c)

theorem keeps_isLive_transporting {α : Type} (x : Action Transport α) :
    Action.Keeps IsLive (transporting x) := fun c hc =>
  leaves_transporting (by cases x c.carrier.transport <;> exact hc)

theorem keeps_isLive_enter (state : State) (hstate : state ≠ .ended) :
    Action.Keeps IsLive (modify (enter state) : Action Connection Unit) :=
  Action.keeps_modify fun c _ hended => hstate ((state_enter state c).symm.trans hended)

theorem keeps_isLive_onOpen (v : Open) : Action.Keeps IsLive (onOpen v) := by
  intro c hc
  rcases onOpen_cases v c with ⟨-, size, c', hopen, hcarrier⟩ | ⟨cause, hopen⟩
  · rw [hopen]
    intro hended
    cases (congrArg Carrier.state hcarrier).symm.trans hended
  · rw [hopen]
    exact hc

/-- Frames of sessions do not end the connection. -/
theorem keeps_isLive_carry (channel : UInt16) (p : Performative) (_ : p.isOfSession = true) :
    Action.Keeps (fun k : Carrier => k.state ≠ .ended) (FrameCarrier.carry channel p) :=
  fun k hk => (Carrier.keeps_carry channel p k rfl).mono fun _ h hended =>
    hk ((congrArg Prod.fst h).symm.trans hended)

/-! ### Steps that may end the connection -/

theorem sound_bind {α β : Type} {x : Action Connection α} {f : α → Action Connection β}
    (hx : Action.Keeps IsLive x) (hf : ∀ a c, IsLive c → Action.Leaves Sound (f a c))
    (hc : c.IsLive) : Action.Leaves Sound ((x >>= f) c) :=
  Action.leaves_bind (hx c hc) (fun a c _ => hf a c) fun _ => IsLive.sound

theorem sound_modify_terminate (c : Connection) (hc : c.IsLive) :
    Action.Leaves Sound ((modify terminate : Action Connection Unit) c) :=
  sound_terminate c hc.sound

theorem sound_onClose (hc : c.IsLive) : Action.Leaves Sound (onClose c) := by
  unfold onClose
  rw [Action.get_bind]
  split
  · exact sound_bind (keeps_isLive_enter .closeReceived (by decide))
      (fun _ _ => sound_bind (keeps_isLive_transporting _) fun _ => sound_modify_terminate) hc
  · exact sound_modify_terminate c hc

theorem sound_dispatch (channel : UInt16) (p : Performative) (hc : c.IsLive) :
    Action.Leaves Sound (dispatch channel p c) := by
  cases p with
  | openFrame v => exact (keeps_isLive_onOpen v c hc).mono fun _ => IsLive.sound
  | close v => exact sound_onClose hc
  | begin v => exact (keeps_onBegin keeps_isLive_carry channel v c hc).mono fun _ => IsLive.sound
  | _ => exact (keeps_onSessionFrame keeps_isLive_carry channel _ c hc).mono fun _ => IsLive.sound

theorem keeps_sound_abort (cause : Fault) : Action.Keeps Sound (abort cause) := by
  refine keeps_sound (fun _ => rests_abort cause) fun c hc => ?_
  unfold abort
  rw [Action.get_bind]
  split
  · exact sound_bind (Action.Keeps.tolerant (keeps_isLive_transporting _))
      (fun _ => sound_modify_terminate) hc
  · exact sound_modify_terminate c hc

theorem keeps_sound_poll (wait : Option Nat) : Action.Keeps Sound (poll wait) := by
  refine keeps_sound (fun _ => rests_poll wait) fun c hc => ?_
  have hkept := keeps_isLive_transporting (Transport.receive wait) c hc
  refine leaves_poll (hkept.mono fun _ => IsLive.sound) ?_ keeps_sound_abort
  intro channel p c' hreceive _
  rw [hreceive] at hkept
  exact sound_dispatch channel p hkept

theorem keeps_sound_openUp (wait : Patience) : Action.Keeps Sound (openUp wait) := by
  have hget : Action.Keeps IsLive (get : Action Connection Connection) := fun _ h => h
  have hawait (c : Connection) (hc : c.IsLive) : Action.Leaves Sound
      ((if !wait.waits then pure .notWaited
        else await wait fun c => c.state = .opened : Action Connection WaitResult) c) := by
    split
    · exact hc.sound
    · exact keeps_await keeps_sound_poll wait _ c hc.sound
  refine keeps_sound (fun _ => rests_openUp wait) fun c hc => ?_
  unfold openUp
  rw [Action.get_bind]
  dsimp only
  split
  · exact hc.sound
  · refine sound_bind (keeps_isLive_transporting _) (fun _ _ => ?_) hc
    refine sound_bind (keeps_isLive_transporting _) fun _ _ => ?_
    refine sound_bind (keeps_isLive_transporting _) fun _ _ => ?_
    refine sound_bind (keeps_isLive_enter .headersExchanged (by decide)) fun _ _ => ?_
    refine sound_bind hget fun _ _ => sound_bind (keeps_isLive_transporting _) fun _ _ => ?_
    exact sound_bind (keeps_isLive_enter .openSent (by decide)) fun _ => hawait

theorem keeps_sound_close (error : Option ErrorInfo) (wait : Patience) :
    Action.Keeps Sound (close error wait) := by
  have hawait (c : Connection) (hc : c.IsLive) : Action.Leaves Sound
      ((if !wait.waits then pure .notWaited else awaitEnd wait : Action Connection WaitResult)
        c) := by
    split
    · exact hc.sound
    · exact keeps_awaitEnd keeps_sound_poll sound_terminate wait c hc.sound
  refine keeps_sound (fun _ => rests_close error wait) fun c hc => ?_
  unfold close
  rw [Action.get_bind]
  cases c.state with
  | ended => exact hc.sound
  | start => exact sound_terminate c hc.sound
  | closeSent | discarding => exact hawait c hc
  | _ =>
    exact sound_bind (keeps_isLive_transporting _)
      (fun _ _ => sound_bind (keeps_isLive_enter .closeSent (by decide)) fun _ => hawait) hc

theorem keeps_sound_onSession (channel : UInt16) (call : Session.Call) :
    Action.Keeps Sound (onSession channel call.perform) :=
  keeps_sound (fun _ => rests_onSession channel call) fun c hc =>
    (keeps_onSession keeps_isLive_carry (Session.scripted_perform call) channel c hc).mono
      fun _ => IsLive.sound

/-- However a connection comes to its end, it is down then. -/
theorem stable_sound : Stable Sound where
  openUp := keeps_sound_openUp
  close := keeps_sound_close
  poll := keeps_sound_poll
  onSession := keeps_sound_onSession
  addSession hc h := by
    obtain ⟨channel, s, -, -, hs, hresult⟩ := addSession_cases h
    rw [hresult]
    intro hended
    have hdown := hc hended
    exact ⟨hdown.isClosed, isIdle_insert hdown.isIdle (Or.inr hs) _⟩
  release channel c hc hended :=
    have hdown := hc hended
    ⟨hdown.isClosed, isIdle_release hdown.isIdle channel⟩
  evaluate c hc hended :=
    have hdown := hc hended
    ⟨hdown.isClosed, isIdle_evaluate hdown.isIdle⟩

/-- The end of a connection is for good.  However calls, the peer and failures have brought a
connection to its end, its transport is given up then; no further calls change its state or its
transport, so no octet is written any more; and all sessions that it ever holds from there on are
over or do not begin. -/
theorem isDown_of_run (transport : Transport) (settings : Settings) (identity : String)
    (sessionName : UInt16 → String) (calls : List Call)
    (hended : (run calls (create transport settings identity sessionName)).state = .ended)
    (more : List Call) :
    let c := run calls (create transport settings identity sessionName)
    (run more c).carrier = c.carrier ∧ (run more c).IsDown := by
  intro c
  have hstart : (create transport settings identity sessionName).Sound := nofun
  have hdown : c.IsDown := stable_sound.run hstart calls hended
  have hrests := (stable_rests c.carrier).run ⟨rfl, hended, hdown⟩ more
  exact ⟨hrests.carrier_eq, hrests.isDown⟩

/-- The peer closes the connection before it has opened it, while a session is in its handshake.
Another session is added and asked to begin after that. -/
theorem isDown_of_closedByPeer :
    let calls := [.openUp .zero, .addSession none, .beginOn 0 .zero, .poll (some 100)]
    let more := [.addSession none, .beginOn 1 .unlimited, .openUp .zero, .close none .unlimited]
    let c := run calls (overOctets (protocolHeader ++ (Frame.performative (.close {})).encode 0))
    c.state = .ended ∧ (run more c).carrier = c.carrier ∧ (run more c).IsDown := by
  intro calls more c
  have hended : c.state = .ended := by decide +kernel
  exact ⟨hended, isDown_of_run _ _ _ _ calls hended more⟩

end Connection

end Amqp
