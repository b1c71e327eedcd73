import Amqp.Proofs.Connection.Finishing
import Amqp.Proofs.Connection.Isolation
import Amqp.Proofs.Session.Strays

/-!
# Discarded sessions

A session that has been discarded still takes the frames of the peer that are on the way.  An open
connection that writes at once goes on after each of them, and the session stays discarded, unless
the frame is stray (`Session.isStray`).  A stray frame ends the connection, and the rest of a
delivery that was in progress is one (`discards_of_polls`).
-/

namespace Amqp.Connection

variable {c c' : Connection} {channel known : UInt16} {s : Session} {p : Performative}

/-- An open connection that writes at once, and holds a discarded session that the peer reaches from
a channel. -/
structure Discards (channel known : UInt16) (s : Session) (c : Connection) : Prop where
  state_eq : c.state = .opened
  isWriting : c.carrier.transport.IsWriting
  way_eq : c.incomingChannels.get? channel = some known
  session_eq : c.sessions.get? known = some s
  discarding : s.state = .discarding

/-! ## The carrier of a discarded session -/

/-- The terms of a discarded session on a carrier that takes its frames. -/
def Carrier.discarding : Session.Terms Carrier where
  kept seat k := seat.state = .discarding ∧ k.state = .opened ∧ k.transport.IsWriting
  stopped halt seat k :=
    halt.IsSessionLocal ∧ seat.state = .discarding ∧ k.state = .opened ∧ k.transport.IsWriting
  raises f := f.isSessionLocal = true

theorem Carrier.hold_discarding : discarding.Hold where
  carry {seat k p} _ hkept := by
    obtain ⟨hseat, hstate, hwriting⟩ := hkept
    have haccepts : k.Accepts := ⟨carriesSessions_of_live (Or.inr hstate), hwriting⟩
    obtain ⟨k', hcarry, hsettings, hk'⟩ := haccepts.carry seat.channel p
    exact Or.inl ⟨k', hcarry, hseat, (congrArg Prod.fst hsettings).trans hstate,
      hk'.accepts.isWriting⟩
  raise hlocal hkept := ⟨hlocal, hkept⟩
  isSessionLocal := id

theorem Carrier.enters_discarding : discarding.Enters .discarding :=
  fun hkept => ⟨rfl, hkept.2⟩

/-! ## Single frames -/

theorem Discards.of_kept (h : c.Discards channel known s) {y : Session × Carrier}
    (hkept : Carrier.discarding.kept y.1.seat y.2) :
    Discards channel known y.1
      { c with carrier := y.2, sessions := c.sessions.insert known y.1 } where
  state_eq := hkept.2.1
  isWriting := hkept.2.2
  way_eq := h.way_eq
  session_eq := (Table.get?_insert _ _ _ _).trans (if_pos rfl)
  discarding := hkept.1

theorem Discards.dropUnmapped_eq (h : c.Discards channel known s) : c.dropUnmapped known = c := by
  unfold dropUnmapped
  rw [h.session_eq, Option.any_some, h.discarding]
  rfl

theorem dispatch_of_isOfLink (hp : p.isOfLink = true) (channel : UInt16) :
    dispatch channel p = onSessionFrame channel p := by
  cases p with
  | openFrame v | close v | begin v | endFrame v => cases hp
  | _ => rfl

/-- What a discarded session makes of a frame, the connection makes of it. -/
theorem Discards.dispatch_eq (h : c.Discards channel known s) (hp : p.isOfLink = true) :
    dispatch channel p c = dropping known (onSession known (Session.dispatch channel p)) c := by
  rw [dispatch_of_isOfLink hp]
  exact onSessionFrame_of_known p h.way_eq (Table.contains_of_get? h.session_eq)

/-- A frame that is not stray leaves the session discarded. -/
theorem Discards.take_of_spared (h : c.Discards channel known s) (hp : p.isOfLink = true)
    (hspared : s.isStray p = false) :
    ∃ s' c', guarded Fault.isSessionLocal (dispatch channel p) c = .ok () c' ∧
      c'.Discards channel known s' := by
  have hmeets := Session.Terms.governs_linkFrame Carrier.hold_discarding channel hp
    Carrier.enters_discarding (Session.admits_of_spared (fun _ => id) hspared) c.carrier
    ⟨h.discarding, h.state_eq, h.isWriting⟩
  have hdispatch := h.dispatch_eq hp
  unfold dropping at hdispatch
  cases hresult : (Session.dispatch channel p : Session.Acting Carrier Unit) (s, c.carrier) with
  | ok _ y =>
    rw [hresult] at hmeets
    have hd := h.of_kept hmeets
    rw [onSession_of_ok h.session_eq hresult] at hdispatch
    dsimp only at hdispatch
    rw [hd.dropUnmapped_eq] at hdispatch
    exact ⟨y.1, _, guarded_of_ok hdispatch, hd⟩
  | error halt y =>
    rw [hresult] at hmeets
    have hd := h.of_kept hmeets.2
    rw [onSession_of_error h.session_eq hresult] at hdispatch
    dsimp only at hdispatch
    rw [hd.dropUnmapped_eq] at hdispatch
    cases halt with
    | stalled => exact absurd hmeets.1 id
    | fault f => exact ⟨y.1, _, guarded_of_spared hdispatch hmeets.1, hd⟩

theorem send_of_isWriting (p : Performative) (h : c.carrier.transport.IsWriting) :
    ∃ d, send p c = .ok () d := by
  obtain ⟨writes, taken, hwrite, -, -⟩ := Transport.write_eq h ((Frame.performative p).encode 0)
  exact ⟨_, transporting_of_ok hwrite⟩

/-- Failing ends a connection that writes at once. -/
theorem abort_of_isWriting (f : Fault) (h : c.carrier.transport.IsWriting) :
    ∃ c', abort f c = .ok () c' ∧ c'.state = .ended := by
  obtain ⟨d, hsend⟩ := send_of_isWriting (.close { error := some (closeError f) }) h
  have htold : Action.tolerant (send (.close { error := some (closeError f) })) c = .ok () d := by
    unfold Action.tolerant
    rw [hsend]
  unfold abort
  rw [Action.get_bind]
  dsimp only
  split
  · rw [Action.bind_of_ok htold]
    exact ⟨_, rfl, state_terminate d⟩
  · exact ⟨_, rfl, state_terminate c⟩

/-- A stray frame ends the connection. -/
theorem Discards.take_of_isStray (h : c.Discards channel known s) (hp : p.isOfLink = true)
    (hstray : s.isStray p = true) :
    ∃ f c', guarded Fault.isSessionLocal (dispatch channel p) c = .error (.fault f) c' ∧
      c'.state = .ended := by
  obtain ⟨f, s', hresult, hstate, hfatal⟩ := Session.dispatch_of_isStray hstray channel c.carrier
  have hd := h.of_kept (y := (s', c.carrier)) ⟨hstate.trans h.discarding, h.state_eq, h.isWriting⟩
  have hdispatch := h.dispatch_eq hp
  unfold dropping at hdispatch
  rw [onSession_of_error h.session_eq hresult] at hdispatch
  dsimp only at hdispatch
  rw [hd.dropUnmapped_eq] at hdispatch
  obtain ⟨c', habort, hended⟩ := abort_of_isWriting f hd.isWriting
  refine ⟨f, c', ?_, hended⟩
  unfold guarded
  rw [hdispatch]
  simp only [hfatal, Bool.false_eq_true, if_false]
  rw [habort]

theorem Discards.of_writingSide (h : c.Discards channel known s) {t : Transport}
    (ht : t.writingSide = c.carrier.transport.writingSide) :
    Discards channel known s { c with carrier := { c.carrier with transport := t } } :=
  ⟨h.state_eq, h.isWriting.of_writingSide ht, h.way_eq, h.session_eq, h.discarding⟩

/-- A poll that receives a frame for a discarded session goes on, or ends the connection. -/
theorem Discards.poll (h : c.Discards channel known s) {wait : Option Nat}
    (hp : p.isOfLink = true) (hreceived : c.received wait = some (channel, p)) :
    (s.isStray p = false →
        ∃ s' c', Connection.poll wait c = .ok () c' ∧ c'.Discards channel known s') ∧
      (s.isStray p = true →
        ∃ f c', Connection.poll wait c = .error (.fault f) c' ∧ c'.state = .ended) := by
  obtain ⟨t, ht, hpoll⟩ := poll_of_received hreceived
  have hd := h.of_writingSide ht
  rw [hpoll]
  exact ⟨hd.take_of_spared hp, hd.take_of_isStray hp⟩

/-! ## The session that is discarded -/

theorem outputs_of_discarded (s : Session) : (s.enter .discarding).2 = [] :=
  List.flatMap_eq_nil_iff.2 fun l _ => by cases l <;> rfl

/-- Ending a mapped session with an error discards it as it is. -/
theorem discards_of_finish (hstate : c.state = .opened) (hwriting : c.carrier.transport.IsWriting)
    (hway : c.incomingChannels.get? channel = some known) (hs : c.sessions.get? known = some s)
    (hmapped : s.state = .mapped) (error : ErrorInfo) :
    ∃ c', onSession known (Session.finish (some error)) c = .ok () c' ∧
      c'.Discards channel known (s.enter .discarding).1 := by
  have haccepts : c.carrier.Accepts := ⟨Carrier.carriesSessions_of_live (Or.inr hstate), hwriting⟩
  obtain ⟨k, hcarry, hsettings, hk⟩ :=
    haccepts.carry s.channel (.endFrame { error := some error })
  have hend : (Session.sendEnd (some error) : Session.Acting Carrier Unit) (s, c.carrier) =
      .ok () (s, k) := Session.emit_of_ok hcarry
  have hdiscard : (Session.transition .discarding : Session.Acting Carrier Unit) (s, k) =
      .ok () ((s.enter .discarding).1, k) := by
    unfold Session.transition Session.commit
    rw [Session.Acting.current_bind, Session.Acting.update_bind, outputs_of_discarded]
    rfl
  have hfinish : (Session.finish (some error) : Session.Acting Carrier Unit) (s, c.carrier) =
      .ok () ((s.enter .discarding).1, k) := by
    unfold Session.finish
    rw [Session.Acting.current_bind, if_pos (by rw [hmapped]; decide), Action.bind_of_ok hend]
    exact hdiscard
  refine ⟨_, onSession_of_ok hs hfinish, (congrArg Prod.fst hsettings).trans hstate,
    hk.accepts.isWriting, hway, ?_, rfl⟩
  exact (Table.get?_insert _ _ _ _).trans (if_pos rfl)

/-! ## Frames on the way -/

/-- Polls in a row. -/
def polls : List (Option Nat) → Action Connection Unit
  | [] => pure ()
  | wait :: waits => do
    poll wait
    polls waits

/-- Whether each of the polls in a row receives a frame for the links of the session on a channel,
and none of these frames is stray. -/
def spares (channel known : UInt16) : List (Option Nat) → Connection → Bool
  | [], _ => true
  | wait :: waits, c =>
    ((c.received wait).any fun x => x.1 = channel && x.2.isOfLink &&
      (c.sessions.get? known).any fun s => !s.isStray x.2) &&
      spares channel known waits (c.after (.poll wait))

/-- Polls leave a connection open, and its discarded session discarded, as long as no frame is
stray.  The next frame does so too, or ends the connection if it is stray. -/
theorem discards_of_polls (h : c.Discards channel known s) {waits : List (Option Nat)}
    (hspares : c.spares channel known waits = true) :
    ∃ s' c', polls waits c = .ok () c' ∧ c'.Discards channel known s' ∧
      ∀ wait p, c'.received wait = some (channel, p) → p.isOfLink = true →
        (s'.isStray p = false →
            ∃ s'' c'', poll wait c' = .ok () c'' ∧ c''.Discards channel known s'') ∧
          (s'.isStray p = true →
            ∃ f c'', poll wait c' = .error (.fault f) c'' ∧ c''.state = .ended) := by
  induction waits generalizing c s with
  | nil => exact ⟨s, c, rfl, h, fun _ _ hreceived hp => h.poll hp hreceived⟩
  | cons wait waits ih =>
    unfold spares at hspares
    rw [Bool.and_eq_true, Option.any_eq_true] at hspares
    obtain ⟨⟨⟨way, p⟩, hreceived, hframe⟩, hrest⟩ := hspares
    rw [h.session_eq, Option.any_some] at hframe
    simp only [Bool.and_eq_true, decide_eq_true_iff, Bool.not_eq_true'] at hframe
    obtain ⟨⟨rfl, hp⟩, hspared⟩ := hframe
    obtain ⟨s', c', hpoll, hc'⟩ := (h.poll hp hreceived).1 hspared
    have hafter : c.after (.poll wait) = c' := congrArg Session.stateAfter hpoll
    obtain ⟨s'', c'', hpolls, hd, hnext⟩ := ih hc' (hafter ▸ hrest)
    refine ⟨s'', c'', ?_, hd, hnext⟩
    unfold polls
    rw [Action.bind_of_ok hpoll, hpolls]

/-- A session that has been ended with an error while a delivery came in on its link, with frames
on the way. -/
def withDiscarded (frames : List Performative) : Connection :=
  let attach : Performative :=
    .attach { name := "in", handle := 0, role := .sender, initialDeliveryCount := some 0 }
  let start : Performative :=
    .transfer { handle := 0, deliveryId := some 0, more := true, payload := [97, 97] }
  run [.openUp .unlimited, .poll (some 100), .poll (some 100), .poll (some 100),
      .finishOn 0 (some { condition := Condition.internalError }) .zero]
    (overFrames ((attach :: start :: frames).map fun p => (5, .performative p)))

/-- A flow, another delivery in two frames and the detach of its link leave the connection open. -/
theorem discards_of_lateFrames :
    let c := withDiscarded
      [.flow { incomingWindow := 10, outgoingWindow := 8 },
        .transfer { handle := 0, deliveryId := some 1, more := true, payload := [99] },
        .transfer { handle := 0, payload := [100] }, .detach { handle := 0, closed := true }]
    let waits : List (Option Nat) := List.replicate 4 (some 100)
    ∃ s, c.Discards 5 0 s ∧ c.spares 5 0 waits = true ∧
      ∃ s' c', polls waits c = .ok () c' ∧ c'.Discards 5 0 s' := by
  intro c waits
  have hsession : (c.sessions.get? 0).map Session.state = some .discarding := by decide +kernel
  have hwriting : c.carrier.transport.isOpen = true ∧ c.carrier.transport.stream.writes = [] := by
    decide +kernel
  obtain ⟨s, hs, hdiscarding⟩ := Option.map_eq_some_iff.1 hsession
  have hc : c.Discards 5 0 s :=
    ⟨by decide +kernel, ⟨hwriting.1, by simp [hwriting.2]⟩, by decide +kernel, hs, hdiscarding⟩
  have hspares : c.spares 5 0 waits = true := by decide +kernel
  obtain ⟨s', c', hpolls, hc', -⟩ := discards_of_polls hc hspares
  exact ⟨s, hc, hspares, s', c', hpolls, hc'⟩

/-- The rest of the delivery that was in progress ends the connection. -/
theorem ended_of_rest :
    let c := withDiscarded [.transfer { handle := 0, payload := [98, 98] }]
    outline (.ok () c) = some (none, .opened, true, [.discarding]) ∧
      outline (poll (some 100) c) =
        some (some
          "malformed protocol : first transfer of a delivery on link 'in' has no delivery id",
          .ended, false, [.discarding]) := by
  decide +kernel

end Amqp.Connection
