import Amqp.Proofs.Connection.Ended
import Amqp.Proofs.Session.Settling

/-!
# Where sessions sit

What a connection knows of its sessions is their seats, and the ways from the peer's channels to
them.  Apart from the peer's Begin nothing gives a session another seat, and nothing maps a session
that was not mapped (`Session.Settles`).  A condition on sessions and ways is `Steady` if it is kept
by the few changes that are left then.  Every step of a connection keeps it, if the peer's Begin
does (`Steady.stable`).  So every session sits on the channel under which the connection holds it
(`stable_seated`).
-/

namespace Amqp

namespace Connection

variable {c : Connection} {I : Connection → Prop}

theorem get?_freeChannel {channel : UInt16} (h : c.freeChannel = .ok channel) :
    c.sessions.get? channel = none := by
  unfold freeChannel at h
  dsimp only at h
  split_ifs at h with hfull
  cases h
  refine Table.get?_eq_none_iff.2 fun hmem => ?_
  have hused := List.mem_map_of_mem (f := UInt16.toNat) hmem
  have hlimit := (min c.settings.connection.channelMax c.remoteChannelMax).toNat_lt
  rw [UInt16.toNat_ofNat_of_lt' (Nat.lt_of_le_of_lt (Nat.le_of_not_lt hfull) hlimit)] at hused
  exact firstUnused_notMem _ _ hused

/-! ## Steady conditions -/

/-- A condition on the sessions of a connection and the ways to them, which is kept when nothing
concerns them, when sessions settle, and when sessions come and go. -/
structure Steady (I : Connection → Prop) : Prop where
  congr : ∀ {c c'}, c'.sessions = c.sessions → c'.incomingChannels = c.incomingChannels → I c → I c'
  settle : ∀ {c k s s'}, c.sessions.get? k = some s → s.Settles s' → I c →
    I { c with sessions := c.sessions.insert k s' }
  map : ∀ {c f}, (∀ s : Session, s.Settles (f s)) → I c →
    I { c with sessions := c.sessions.mapValues f }
  add : ∀ {c k s}, c.sessions.get? k = none → s.channel = k → s.state = .unmapped → I c →
    I { c with sessions := c.sessions.insert k s }
  release : ∀ {c} channel, I c → I (c.release channel)

namespace Steady

variable (hI : Steady I)

include hI

theorem of_eq {c' : Connection} (hc : I c) (hsessions : c'.sessions = c.sessions := by rfl)
    (hchannels : c'.incomingChannels = c.incomingChannels := by rfl) : I c' :=
  hI.congr hsessions hchannels hc

theorem transporting {α : Type} (x : Action Transport α) :
    Action.Keeps I (Connection.transporting x) := fun c hc =>
  leaves_transporting (by cases x c.carrier.transport <;> exact hI.of_eq hc)

theorem enter (state : State) (hc : I c) : I (c.enter state) := by
  unfold Connection.enter
  split_ifs
  · exact hc
  · exact hI.of_eq (hI.map (Session.settles_followConnection state) hc)

theorem terminate (hc : I c) : I c.terminate := hI.of_eq (hI.enter .ended hc)

theorem keeps_enter (state : State) :
    Action.Keeps I (modify (Connection.enter state) : Action Connection Unit) :=
  Action.keeps_modify fun _ => hI.enter state

theorem outlastsClosing : OutlastsClosing I where
  enter hc _ := hI.enter _ hc
  send _ := hI.transporting _
  terminate := hI.terminate

theorem onOpen (v : Open) : Action.Keeps I (onOpen v) := by
  unfold Connection.onOpen
  refine Action.keeps_get_bind fun c hc => ?_
  dsimp only
  split
  · exact hc
  split
  · exact hc
  · exact hI.enter .opened (hI.of_eq hc)

theorem onSession {α : Type} {x : Session.Acting Carrier α} (channel : UInt16)
    (hx : ∀ s k, Action.Leaves (fun y => s.Settles y.1) (x (s, k))) :
    Action.Keeps I (onSession channel x) := fun c hc =>
  leaves_onSession hc fun s hs => (hx s c.carrier).mono fun _ hsettles =>
    hI.of_eq (hI.settle hs hsettles hc)

theorem dropping {x : Action Connection Unit} (hx : Action.Keeps I x) (channel : UInt16) :
    Action.Keeps I (dropping channel x) := by
  intro c hc
  have hdrop (c : Connection) (hc : I c) : I (c.dropUnmapped channel) := by
    unfold dropUnmapped
    split
    · exact hI.release channel hc
    · exact hc
  have h := hx c hc
  unfold Connection.dropping
  cases hresult : x c with
  | ok _ c' =>
    rw [hresult] at h
    exact hdrop c' h
  | error halt c' =>
    rw [hresult] at h
    exact hdrop c' h

theorem onSessionFrame {p : Performative} (channel : UInt16)
    (hp : ∀ s (k : Carrier),
      Action.Leaves (fun y => s.Settles y.1) (Session.dispatch channel p (s, k))) :
    Action.Keeps I (onSessionFrame channel p) := by
  intro c hc
  by_cases h : ∃ known, c.incomingChannels.get? channel = some known ∧
      c.sessions.contains known = true
  · obtain ⟨known, hchannel, hknown⟩ := h
    rw [onSessionFrame_of_known p hchannel hknown]
    exact hI.dropping (hI.onSession known hp) known c hc
  · have hunknown : ∀ known, c.incomingChannels.get? channel = some known →
        c.sessions.contains known = false := fun known hchannel =>
      Bool.eq_false_iff.2 fun hknown => h ⟨known, hchannel, hknown⟩
    rw [onSessionFrame_of_unknown p hunknown]
    exact hc

/-- A frame keeps a steady condition, unless it is a Begin that does not. -/
theorem dispatch {channel : UInt16} {p : Performative} (hc : I c)
    (hbegin : ∀ v, p = .begin v → Action.Leaves I (onBegin channel v c)) :
    Action.Leaves I (dispatch channel p c) := by
  cases p with
  | openFrame v => exact hI.onOpen v c hc
  | close v => exact hI.outlastsClosing.onClose c hc
  | begin v => exact hbegin v rfl
  | endFrame v => exact hI.onSessionFrame channel (fun _ => Session.settles_onEnd) c hc
  | _ => exact hI.onSessionFrame channel (fun _ => Session.settles_linkFrame channel rfl) c hc

theorem poll {wait : Option Nat} (hc : I c)
    (hbegin : ∀ channel v c', Connection.transporting (Transport.receive wait) c =
      .ok (some (channel, .performative (.begin v))) c' → I c' →
        Action.Leaves I (onBegin channel v c')) :
    Action.Leaves I (poll wait c) := by
  refine leaves_poll (hI.transporting _ c hc) (fun channel p c' hreceive hc' => ?_)
    hI.outlastsClosing.abort
  refine hI.dispatch hc' fun v hv => ?_
  subst hv
  exact hbegin channel v c' hreceive hc'

theorem addSession {settings : Option Settings.Session} {result : UInt16 × Connection}
    (hc : I c) (h : c.addSession settings = .ok result) : I result.2 := by
  obtain ⟨channel, s, hfree, hchannel, hstate, hresult⟩ := addSession_cases h
  rw [hresult]
  exact hI.add (get?_freeChannel hfree) hchannel hstate hc

theorem evaluate (hc : I c) : I c.evaluate := hI.map (Session.settles_evaluate _) hc

theorem perform (call : Session.Call) (channel : UInt16) :
    Action.Keeps I (Connection.onSession channel call.perform) :=
  hI.onSession channel fun _ => Session.settles_perform call

/-- A Begin opens a way to a session that it names, or to a new one on a free channel. -/
theorem onBegin {channel : UInt16} {v : Begin} (hc : I c)
    (hknown : ∀ known s s', v.remoteChannel = some known → c.sessions.get? known = some s →
      (s.Settles s' ∨ s'.channel = s.channel ∧ s'.remoteChannel = some channel) →
        I { c with
          incomingChannels := c.incomingChannels.insert channel known
          sessions := c.sessions.insert known s' })
    (hfresh : ∀ fresh s, v.remoteChannel = none → c.freeChannel = .ok fresh →
      s.channel = fresh → s.remoteChannel = some channel →
        I { c with
          incomingChannels := c.incomingChannels.insert channel fresh
          sessions := c.sessions.insert fresh s }) :
    Action.Leaves I (onBegin channel v c) := by
  cases hremote : v.remoteChannel with
  | some known =>
    cases hs : c.sessions.get? known with
    | none =>
      rw [onBegin_of_unknown hremote (Table.contains_of_get?_eq_none hs)]
      exact hc
    | some s =>
      rw [onBegin_of_known hremote (Table.contains_of_get? hs)]
      refine leaves_onSession_of_some hs ?_
      exact (Session.leaves_onBegin channel v c.carrier).mono fun y hy =>
        hI.of_eq (hknown known s y.1 hremote hs hy)
  | none =>
    cases hfree : c.freeChannel with
    | error f =>
      rw [onBegin_of_full hremote hfree]
      exact hc
    | ok fresh =>
      have hbegun := Session.leaves_onBegin_of_unmet channel v (k := c.carrier)
        (s := Session.create (c.sessionName fresh) fresh c.settings.session c.settings.link)
        (Or.inr rfl)
      rw [onBegin_of_fresh hremote hfree]
      generalize (Session.onBegin channel v : Session.Acting Carrier Unit) _ = begun at hbegun ⊢
      cases begun with
      | ok _ y =>
        exact hI.of_eq (hfresh fresh y.1 hremote hfree hbegun.1 hbegun.2)
      | error halt y => exact hI.of_eq hc

/-! ### Opening, closing and waiting -/

theorem openUp {wait : Patience}
    (hpoll : wait.waits = true → ∀ wait, Action.Keeps I (Connection.poll wait)) :
    Action.Keeps I (openUp wait) := by
  have hwait : Action.Keeps I (if !wait.waits then pure .notWaited
      else await wait fun c => c.state = .opened : Action Connection WaitResult) := by
    split
    · exact Action.keeps_pure _
    · rename_i hwaits
      exact keeps_await (hpoll (by simpa using hwaits)) wait _
  unfold Connection.openUp
  refine Action.keeps_get_bind fun c hc => ?_
  dsimp only
  split
  · exact hc
  refine ((hI.transporting _).bind fun _ => (hI.transporting _).bind fun _ =>
    (hI.transporting _).bind fun _ => (hI.keeps_enter _).bind fun _ => ?_) c hc
  refine Action.keeps_get_bind fun c hc => ?_
  exact ((hI.transporting _).bind fun _ => (hI.keeps_enter _).bind fun _ => hwait) c hc

/-- A steady condition that the peer's Begin keeps is kept by every step of a connection. -/
theorem stable (hbegin : ∀ channel v, Action.Keeps I (Connection.onBegin channel v)) :
    Stable I := by
  have hpoll (wait : Option Nat) : Action.Keeps I (Connection.poll wait) := fun c hc =>
    hI.poll hc fun channel v c' _ => hbegin channel v c'
  exact {
    openUp := fun _ => hI.openUp fun _ => hpoll
    close := fun error _ => hI.outlastsClosing.close (fun _ => hpoll) error
    poll := hpoll
    onSession := fun channel call => hI.perform call channel
    addSession := hI.addSession
    release := fun channel _ => hI.release channel
    evaluate := fun _ => hI.evaluate }

end Steady

/-! ## Seats -/

/-- Whether every session sits on the channel under which the connection holds it. -/
def Seated (c : Connection) : Prop :=
  ∀ channel s, c.sessions.get? channel = some s → s.channel = channel

theorem seated_insert {channel : UInt16} {s : Session} (hc : c.Seated) (hs : s.channel = channel)
    {c' : Connection} (h : c'.sessions = c.sessions.insert channel s) : c'.Seated := by
  intro other s' hs'
  rw [h, Table.get?_insert] at hs'
  split_ifs at hs' with hother
  · cases hs'
    exact hs.trans hother.symm
  · exact hc other s' hs'

theorem steady_seated : Steady Seated where
  congr hsessions _ hc := by
    unfold Seated
    rw [hsessions]
    exact hc
  settle hs hsettles hc := seated_insert hc (hsettles.channel_eq.trans (hc _ _ hs)) rfl
  map {c f} hf hc := by
    intro channel s h
    have hmap : (c.sessions.mapValues f).get? channel = (c.sessions.get? channel).map f :=
      Table.get?_mapValues _ _ _
    rw [hmap] at h
    obtain ⟨s', hs', rfl⟩ := Option.map_eq_some_iff.1 h
    exact (hf s').channel_eq.trans (hc channel s' hs')
  add _ hs _ hc := seated_insert hc hs rfl
  release {c} channel hc := by
    intro other s h
    have herase : (c.release channel).sessions.get? other =
        if other = channel then none else c.sessions.get? other := Table.get?_erase _ _ _
    rw [herase] at h
    split_ifs at h
    exact hc other s h

theorem seated_create (transport : Transport) (settings : Settings) (identity : String)
    (sessionName : UInt16 → String) : (create transport settings identity sessionName).Seated :=
  fun _ _ h => nomatch h

/-- However a connection has come about, its sessions sit on their channels. -/
theorem stable_seated : Stable Seated :=
  steady_seated.stable fun _ _ _ hc =>
    steady_seated.onBegin hc
      (fun known s _ _ hs hs' => seated_insert hc
        ((hs'.elim Session.Settles.channel_eq And.left).trans (hc known s hs)) rfl)
      fun _ _ _ _ hs _ => seated_insert hc hs rfl

end Connection

end Amqp
