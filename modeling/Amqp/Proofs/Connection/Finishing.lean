import Amqp.Proofs.Connection.Ended

/-!
# Finishing a connection

A connection that is driven, or closed with some patience, comes to its end on nearly every way out:
when the peer closes it, when a fault ends it, and when the time for the peer's Close is up.  The
exception is the Close itself.  If it cannot be sent, closing fails at once and leaves the
connection as it was, with its sessions and its transport (`closeFault?`, `finished_or_unsent`).
-/

namespace Amqp.Connection

variable {c c' : Connection} {o : Option Fault}

/-- A connection that is over and has given up its transport and its sessions. -/
structure IsFinished (c : Connection) : Prop where
  state_eq : c.state = .ended
  isDown : c.IsDown

/-- The fault that keeps a connection from sending the Close when it is closed. -/
def closeFault? (error : Option ErrorInfo) (c : Connection) : Option Fault :=
  if c.state.sendsClose then (exit? (send (.close { error }) c)).bind Prod.fst else none

/-! ## Faults that end the connection -/

/-- Failing ends the connection, unless it waits for good to tell the peer. -/
theorem abort_cases (f : Fault) (c : Connection) :
    (∃ c', abort f c = .ok () c' ∧ c'.state = .ended) ∨ ∃ c', abort f c = .error .stalled c' := by
  unfold abort
  rw [Action.get_bind]
  dsimp only
  split
  · cases htold : Action.tolerant (send (.close { error := some (closeError f) })) c with
    | ok _ d =>
      rw [Action.bind_of_ok htold]
      exact Or.inl ⟨_, rfl, state_terminate d⟩
    | error halt d =>
      rw [Action.bind_of_error htold, Action.eq_stalled_of_tolerant htold]
      exact Or.inr ⟨d, rfl⟩
  · exact Or.inl ⟨_, rfl, state_terminate c⟩

theorem state_of_guarded_eq_fault {spares : Fault → Bool} {x : Action Connection Unit} {f : Fault}
    (h : guarded spares x c = .error (.fault f) c') : c'.state = .ended := by
  unfold guarded at h
  cases hx : x c with
  | ok _ d =>
    rw [hx] at h
    cases h
  | error halt d =>
    rw [hx] at h
    cases halt with
    | stalled => cases h
    | fault cause =>
      dsimp only at h
      split at h
      · cases h
      · rcases abort_cases cause d with ⟨d', habort, hended⟩ | ⟨d', habort⟩
        · rw [habort] at h
          cases h
          exact hended
        · rw [habort] at h
          cases h

/-- A poll that fails ends the connection. -/
theorem state_of_poll_eq_fault {wait : Option Nat} {f : Fault}
    (h : poll wait c = .error (.fault f) c') : c'.state = .ended := by
  unfold poll at h
  cases hreceive : transporting (Transport.receive wait) c with
  | error halt d =>
    rw [hreceive] at h
    cases halt with
    | stalled => cases h
    | fault cause => exact state_of_guarded_eq_fault h
  | ok got d =>
    rw [hreceive] at h
    match got with
    | none => cases h
    | some (channel, .heartbeat) => cases h
    | some (channel, .performative p) => exact state_of_guarded_eq_fault h

/-! ## Waiting for the end -/

theorem reached_of_pollUntil {reached : Connection → Bool} {deadline : Option Nat} {fuel : Nat}
    (h : pollUntil reached deadline fuel c = .ok .reached c') : reached c' = true := by
  induction fuel generalizing c with
  | zero => cases h
  | succ fuel ih =>
    rw [pollUntil, Action.get_bind] at h
    have hgo (wait : Option Nat)
        (h : (poll wait >>= fun _ => pollUntil reached deadline fuel) c = .ok .reached c') :
        reached c' = true := by
      cases hpoll : poll wait c with
      | error halt d =>
        rw [Action.bind_of_error hpoll] at h
        cases h
      | ok _ d =>
        rw [Action.bind_of_ok hpoll] at h
        exact ih h
    dsimp only at h
    split at h
    · rename_i hreached
      cases h
      exact hreached
    split at h
    · cases h
    cases deadline with
    | none => exact hgo _ h
    | some instant =>
      dsimp only at h
      split at h
      · cases h
      · exact hgo _ h

/-- However a wait for the end of a connection ends, the connection has ended. -/
theorem state_of_awaitEnd {wait : Patience} (h : exit? (awaitEnd wait c) = some (o, c')) :
    c'.state = .ended := by
  unfold awaitEnd at h
  cases hawait : await wait (fun c => c.state = .ended) c with
  | ok result d =>
    rw [hawait] at h
    cases result with
    | reached =>
      cases h
      exact of_decide_eq_true (reached_of_pollUntil hawait)
    | timedOut | notWaited =>
      cases h
      exact state_terminate d
  | error halt d =>
    rw [hawait] at h
    cases halt with
    | stalled => cases h
    | fault f =>
      cases h
      exact state_terminate d

/-! ## Closing -/

/-- What closing leaves at its end if `unsent` is the fault that kept it from sending the Close: a
connection that is finished if there was none, and otherwise an unfinished one and that fault. -/
def FinishesUnless (unsent o : Option Fault) (c' : Connection) : Prop :=
  (unsent = none → c'.IsFinished) ∧ ∀ f, unsent = some f → o = some f ∧ ¬c'.IsFinished

theorem ne_ended_of_sendsClose (h : c.state.sendsClose = true) : c.state ≠ .ended := by
  intro hended
  rw [hended] at h
  cases h

theorem leaves_state_send (p : Performative) (c : Connection) :
    Action.Leaves (fun c' => c'.state = c.state) (send p c) :=
  leaves_transporting (by cases Transport.send 0 (.performative p) c.carrier.transport <;> rfl)

/-- Closing with some patience leaves a connection that has ended, or fails to send the Close. -/
theorem state_of_close {error : Option ErrorInfo} {wait : Patience} (hwait : wait.waits = true)
    (h : exit? (close error wait c) = some (o, c')) :
    (closeFault? error c = none → c'.state = .ended) ∧
      ∀ f, closeFault? error c = some f → o = some f ∧ c'.state ≠ .ended := by
  have hawait (d : Connection) (h : exit? ((if !wait.waits then pure .notWaited
      else awaitEnd wait : Action Connection WaitResult) d) = some (o, c')) :
      c'.state = .ended := by
    rw [hwait] at h
    exact state_of_awaitEnd h
  unfold closeFault?
  cases hsends : c.state.sendsClose with
  | false =>
    refine ⟨fun _ => ?_, fun f hf => by cases hf⟩
    unfold close at h
    rw [Action.get_bind] at h
    cases hstate : c.state with
    | ended =>
      rw [hstate] at h
      cases h
      exact hstate
    | start =>
      rw [hstate] at h
      cases h
      exact state_terminate c
    | closeSent | discarding =>
      rw [hstate] at h
      exact hawait c h
    | _ =>
      rw [hstate] at hsends
      cases hsends
  | true =>
    have hkept := leaves_state_send (.close { error }) c
    rw [close_of_sendsClose hsends] at h
    cases hsend : send (.close { error }) c with
    | ok _ d =>
      rw [Action.bind_of_ok hsend] at h
      exact ⟨fun _ => hawait _ h, fun f hf => by cases hf⟩
    | error halt d =>
      rw [Action.bind_of_error hsend] at h
      rw [hsend] at hkept
      cases halt with
      | stalled => cases h
      | fault f =>
        cases h
        refine ⟨nofun, fun f' hf' => ?_⟩
        cases hf'
        exact ⟨rfl, fun hended => ne_ended_of_sendsClose hsends (hkept.symm.trans hended)⟩

/-! ## Driving -/

/-- The connection at which driving it comes upon a request to shut down, if it does so before the
connection has ended. -/
def atShutdown (shutdown : Shutdown) : (fuel : Nat) → Connection → Option Connection
  | 0, _ => none
  | fuel + 1, c =>
    if c.state = .ended then none
    else if shutdown.isRequested c.now then some c
    else
      match poll (some c.idleWait) c with
      | .ok _ d => atShutdown shutdown fuel d.evaluate
      | .error _ _ => none

/-- Driving leaves a connection that has ended, or fails to send the Close of a shutdown. -/
theorem state_of_driveWithin {shutdown : Shutdown} {fuel : Nat}
    (h : exit? (driveWithin shutdown fuel c) = some (o, c')) :
    ((c.atShutdown shutdown fuel).bind (closeFault? none) = none → c'.state = .ended) ∧
      ∀ f, (c.atShutdown shutdown fuel).bind (closeFault? none) = some f →
        o = some f ∧ c'.state ≠ .ended := by
  induction fuel generalizing c with
  | zero => cases h
  | succ fuel ih =>
    unfold driveWithin at h
    rw [Action.get_bind] at h
    unfold atShutdown
    split at h
    · rename_i hended
      rw [if_pos hended]
      cases h
      exact ⟨fun _ => hended, fun f hf => by cases hf⟩
    rename_i hlive
    rw [if_neg hlive]
    split at h
    · rename_i hrequested
      rw [if_pos hrequested]
      rw [exit?_discard] at h
      exact state_of_close rfl h
    rename_i hwaiting
    rw [if_neg hwaiting]
    cases hpoll : poll (some c.idleWait) c with
    | ok _ d =>
      rw [Action.bind_of_ok hpoll] at h
      exact ih h
    | error halt d =>
      rw [Action.bind_of_error hpoll] at h
      cases halt with
      | stalled => cases h
      | fault f =>
        cases h
        exact ⟨fun _ => state_of_poll_eq_fault hpoll, fun f hf => by cases hf⟩

/-! ## Finished connections -/

theorem Sound.finishesUnless {unsent : Option Fault} (hc : c'.Sound)
    (h : (unsent = none → c'.state = .ended) ∧
      ∀ f, unsent = some f → o = some f ∧ c'.state ≠ .ended) : FinishesUnless unsent o c' :=
  ⟨fun hnone => ⟨h.1 hnone, hc (h.1 hnone)⟩,
    fun f hf => ⟨(h.2 f hf).1, fun hfinished => (h.2 f hf).2 hfinished.state_eq⟩⟩

/-- Whatever calls and the peer have made of a connection, and whatever the stream does: when it has
been closed with some patience, or driven up to its end or to a shutdown, it is finished, unless the
Close could not be sent.  That fault is reported then, and the connection is not finished. -/
theorem finished_or_unsent (transport : Transport) (settings : Settings) (identity : String)
    (sessionName : UInt16 → String) (calls : List Call) (error : Option ErrorInfo)
    {wait : Patience} (hwait : wait.waits = true) (shutdown : Shutdown) :
    let c := run calls (create transport settings identity sessionName)
    (∀ o c', exit? (close error wait c) = some (o, c') →
        FinishesUnless (closeFault? error c) o c') ∧
      ∀ o c', exit? (drive shutdown c) = some (o, c') →
        FinishesUnless ((c.atShutdown shutdown c.pollBound).bind (closeFault? none)) o c' := by
  intro c
  have hstart : (create transport settings identity sessionName).Sound := nofun
  have hsound : c.Sound := stable_sound.run hstart calls
  refine ⟨fun o c' h => ?_, fun o c' h => ?_⟩
  · exact (leaves_of_exit? (keeps_sound_close error wait c hsound) h).finishesUnless
      (state_of_close hwait h)
  · exact (leaves_of_exit? (stable_sound.drive shutdown c hsound) h).finishesUnless
      (state_of_driveWithin h)

/-- An open connection on which the peer has begun a session.  The peer says nothing more, and
`writes` is what the next writes meet. -/
def withSession (writes : List WriteEvent) : Connection :=
  let octets := protocolHeader ++ Transport.wire firstFrames
  let taken : List WriteEvent := [.accept 100, .accept 100, .accept 100]
  let transport := Transport.create {}
    { horizon := 1000, reads := [.octets octets], writes := taken ++ writes } true
  let settings : Settings := { connection := { closeTimeout := 50 } }
  run [.openUp .unlimited, .poll (some 100)] (create transport settings "client" fun _ => "session")

/-- The Close goes out in two pieces, and the peer never answers it. -/
theorem finished_of_silentPeer :
    let c := withSession [.accept 5, .accept 7]
    let shutdown : Shutdown := { requestedAt := some 0 }
    Patience.waits (.limited 50) = true ∧
      (∃ o c', exit? (close none (.limited 50) c) = some (o, c') ∧ c'.IsFinished) ∧
      ∃ o c', exit? (drive shutdown c) = some (o, c') ∧ c'.IsFinished := by
  intro c shutdown
  have hclosed : (exit? (close none (.limited 50) c)).isSome = true := by decide +kernel
  have hdriven : (exit? (drive shutdown c)).isSome = true := by decide +kernel
  obtain ⟨⟨o, d⟩, hclosed⟩ := Option.isSome_iff_exists.1 hclosed
  obtain ⟨⟨o', d'⟩, hdriven⟩ := Option.isSome_iff_exists.1 hdriven
  have hwaits : Patience.waits (.limited 50) = true := rfl
  refine ⟨hwaits, ⟨o, d, hclosed, ?_⟩, o', d', hdriven, ?_⟩
  · exact ((finished_or_unsent _ _ _ _ _ none hwaits shutdown).1 o d hclosed).1 (by decide +kernel)
  · exact ((finished_or_unsent _ _ _ _ _ none hwaits shutdown).2 o' d' hdriven).1
      (by decide +kernel)

/-- What shows at the end of an action: what its fault says, if it has failed, the state of the
connection, whether it still holds its transport, and the states of its sessions. -/
def outline {α : Type} (r : EStateM.Result Halt Connection α) :
    Option (Option String × State × Bool × List Session.State) :=
  (exit? r).map fun x => (x.1.map Fault.message, x.2.state, x.2.carrier.transport.isOpen,
    x.2.sessions.values.map Session.state)

/-- The stream breaks when the Close is written.  Closing and driving fail then, but the connection
stays open, with its transport and a mapped session. -/
theorem unfinished_of_brokenPipe :
    let c := withSession [.fault .brokenPipe]
    let unfinished :=
      some (some "io error: broken pipe", State.opened, true, [Session.State.mapped])
    outline (close none .unlimited c) = unfinished ∧
      outline (drive { requestedAt := some 0 } c) = unfinished := by
  decide +kernel

end Amqp.Connection
