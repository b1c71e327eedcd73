import Amqp.Proofs.Connection.Carrier
import Amqp.Proofs.Transport.Sides

/-!
# Calls of a connection's owner

A `Call` is what the owner of a connection, or of one of its sessions, can ask for.  `run` is what a
connection becomes by calls in a row, whatever comes of each.  Waiting is made of polls, so a
condition that polls and the single steps keep (`Stable`) holds after every run (`Stable.run`).
-/

namespace Amqp.Connection

/-! ## Calls -/

/-- A call of the owner of a connection or of one of its sessions. -/
inductive Call where
  | openUp (wait : Patience)
  | close (error : Option ErrorInfo) (wait : Patience)
  | addSession (settings : Option Settings.Session)
  | beginOn (channel : UInt16) (wait : Patience)
  | finishOn (channel : UInt16) (error : Option ErrorInfo) (wait : Patience)
  | onSession (channel : UInt16) (call : Session.Call)
  | release (channel : UInt16)
  | evaluate
  | awaitSession (channel : UInt16) (state : Session.State) (wait : Patience)
  | poll (wait : Option Nat)
  | drive (shutdown : Shutdown)

namespace Call

/-- What a connection does upon a call. -/
def perform : Call → Action Connection Unit
  | openUp wait => discard (Connection.openUp wait)
  | close error wait => discard (Connection.close error wait)
  | addSession settings => do
    let (_, c) ← Action.ofExcept ((← get).addSession settings)
    set c
  | beginOn channel wait => discard (Connection.beginOn channel wait)
  | finishOn channel error wait => discard (Connection.finishOn channel error wait)
  | onSession channel call => Connection.onSession channel call.perform
  | release channel => modify (Connection.release channel)
  | evaluate => modify Connection.evaluate
  | awaitSession channel state wait => discard (Connection.awaitSession channel state wait)
  | poll wait => Connection.poll wait
  | drive shutdown => Connection.drive shutdown

/-- Whether a call reads frames of the peer without any request of its own. -/
def listens : Call → Bool
  | awaitSession .. | poll _ | drive _ => true
  | _ => false

end Call

/-- A connection after a call, also after one that has failed or never returns. -/
def after (c : Connection) (call : Call) : Connection := Session.stateAfter (call.perform c)

/-- A connection after calls in a row. -/
def run (calls : List Call) (c : Connection) : Connection := calls.foldl after c

/-! ## Ends of actions -/

/-- How an action has come to its end: its fault, if it has failed, and the connection that it
leaves.  An action that still waits has not come to its end. -/
def exit? {α : Type} : EStateM.Result Halt Connection α → Option (Option Fault × Connection)
  | .ok _ c => some (none, c)
  | .error (.fault f) c => some (some f, c)
  | .error .stalled _ => none

theorem leaves_of_exit? {α : Type} {I : Connection → Prop}
    {r : EStateM.Result Halt Connection α} {o : Option Fault} {c' : Connection}
    (hr : Action.Leaves I r) (h : exit? r = some (o, c')) : I c' := by
  cases r with
  | ok a d =>
    cases h
    exact hr
  | error halt d =>
    cases halt with
    | stalled => cases h
    | fault f =>
      cases h
      exact hr

theorem eq_ok_of_exit? {r : EStateM.Result Halt Connection Unit} {c' : Connection}
    (h : exit? r = some (none, c')) : r = .ok () c' := by
  cases r with
  | ok _ d =>
    cases h
    rfl
  | error halt d => cases halt <;> cases h

theorem exit?_discard {α : Type} (x : Action Connection α) (c : Connection) :
    exit? ((discard x : Action Connection Unit) c) = exit? (x c) := by
  have hbind : (Functor.discard x : Action Connection Unit) = x >>= fun _ => pure () := rfl
  rw [hbind]
  cases hx : x c with
  | ok a d =>
    rw [Action.bind_of_ok hx]
    rfl
  | error halt d =>
    rw [Action.bind_of_error hx]
    cases halt <;> rfl

/-! ## What calls keep -/

section

variable {α : Type} {I : Connection → Prop}

theorem leaves_discard {x : Action Connection α} {c : Connection} (h : Action.Leaves I (x c)) :
    Action.Leaves I ((discard x : Action Connection Unit) c) := by
  have hbind : (Functor.discard x : Action Connection Unit) = x >>= fun _ => pure () := rfl
  rw [hbind]
  exact Action.leaves_bind h (fun _ _ _ hc => hc) fun _ => id

theorem keeps_discard {x : Action Connection α} (h : Action.Keeps I x) :
    Action.Keeps I (discard x) := fun c hc => leaves_discard (h c hc)

/-- A transport that has been given up receives nothing. -/
theorem receive_of_isClosed {c : Connection} (h : c.carrier.transport.IsClosed)
    (wait : Option Nat) :
    transporting (Transport.receive wait) c = .error (.fault (.closed .transportClosed)) c :=
  transporting_of_error (Transport.receive_of_isClosed h wait)

/-- A connection is opened once only. -/
theorem openUp_of_ne_start {c : Connection} (h : c.state ≠ .start) (wait : Patience) :
    openUp wait c = .error (.fault (.illegalState (.connectionCannotOpen c.state))) c := by
  unfold openUp
  rw [Action.get_bind]
  dsimp only
  rw [if_pos h]
  rfl

/-- Whether closing a connection in this state sends a Close. -/
def State.sendsClose : State → Bool
  | ended | start | closeSent | discarding => false
  | _ => true

theorem State.sendsClose_of_live {state : State} (h : state = .openSent ∨ state = .opened) :
    state.sendsClose = true := by
  rcases h with h | h <;> rw [h] <;> rfl

theorem close_of_sendsClose {c : Connection} {error : Option ErrorInfo}
    (h : c.state.sendsClose = true) (wait : Patience) :
    close error wait c = (send (.close { error }) >>= fun _ => modify (enter .closeSent) >>=
      fun _ => if !wait.waits then pure .notWaited else awaitEnd wait) c := by
  unfold close
  rw [Action.get_bind]
  cases hstate : c.state with
  | ended | start | closeSent | discarding =>
    rw [hstate] at h
    cases h
  | _ => rfl

theorem close_of_sent {error : Option ErrorInfo} {wait : Patience} {c c' : Connection}
    (hsends : c.state.sendsClose = true) (h : send (.close { error }) c = .ok () c') :
    close error wait c =
      (if !wait.waits then pure .notWaited else awaitEnd wait : Action Connection WaitResult)
        (c'.enter .closeSent) := by
  rw [close_of_sendsClose hsends, Action.bind_of_ok h]
  rfl

theorem keeps_stalled : Action.Keeps I (throw .stalled : Action Connection α) := fun _ h => h

/-- A guarded action leaves what it leaves unguarded, if failing keeps that. -/
theorem leaves_guarded {spares : Fault → Bool} {x : Action Connection Unit} {c : Connection}
    (hx : Action.Leaves I (x c)) (habort : ∀ f, Action.Keeps I (abort f)) :
    Action.Leaves I (guarded spares x c) := by
  unfold guarded
  cases hresult : x c with
  | ok a c' =>
    rw [hresult] at hx
    exact hx
  | error halt c' =>
    rw [hresult] at hx
    cases halt with
    | stalled => exact hx
    | fault f =>
      have hfail := habort f c' hx
      dsimp only
      split
      · exact hx
      · cases hresult' : abort f c' with
        | ok a c'' =>
          rw [hresult'] at hfail
          exact hfail
        | error halt c'' =>
          rw [hresult'] at hfail
          exact hfail

/-- A poll takes the frame that it has received, if there is one. -/
theorem leaves_poll {wait : Option Nat} {c : Connection}
    (hreceive : Action.Leaves I (transporting (Transport.receive wait) c))
    (hdispatch : ∀ channel p c',
      transporting (Transport.receive wait) c = .ok (some (channel, .performative p)) c' → I c' →
        Action.Leaves I (dispatch channel p c'))
    (habort : ∀ f, Action.Keeps I (abort f)) : Action.Leaves I (poll wait c) := by
  unfold poll
  cases hresult : transporting (Transport.receive wait) c with
  | error halt c' =>
    rw [hresult] at hreceive
    cases halt with
    | stalled => exact hreceive
    | fault f => exact leaves_guarded (x := Action.raise f) hreceive habort
  | ok got c' =>
    rw [hresult] at hreceive
    match got with
    | none => exact hreceive
    | some (channel, .heartbeat) => exact hreceive
    | some (channel, .performative p) =>
      exact leaves_guarded (hdispatch channel p c' hresult hreceive) habort

/-- The performative that a poll receives, with its channel, if it receives one. -/
def received (wait : Option Nat) (c : Connection) : Option (UInt16 × Performative) :=
  match transporting (Transport.receive wait) c with
  | .ok (some (channel, .performative p)) _ => some (channel, p)
  | _ => none

/-- A poll takes what it has received with the same writing side. -/
theorem poll_of_received {wait : Option Nat} {c : Connection} {channel : UInt16}
    {p : Performative} (h : c.received wait = some (channel, p)) :
    ∃ t, t.writingSide = c.carrier.transport.writingSide ∧
      poll wait c = guarded Fault.isSessionLocal (dispatch channel p)
        { c with carrier := { c.carrier with transport := t } } := by
  have hside := Transport.keeps_receive wait c.carrier.transport rfl
  unfold received at h
  unfold poll
  cases hreceive : Transport.receive wait c.carrier.transport with
  | error halt t =>
    rw [transporting_of_error hreceive] at h
    cases h
  | ok got t =>
    rw [hreceive] at hside
    rw [transporting_of_ok hreceive] at h ⊢
    match got with
    | none => cases h
    | some (_, .heartbeat) => cases h
    | some (_, .performative _) =>
      cases h
      exact ⟨t, hside, rfl⟩

theorem keeps_pollUntil (hpoll : ∀ wait, Action.Keeps I (poll wait)) (reached : Connection → Bool)
    (deadline : Option Nat) (fuel : Nat) :
    Action.Keeps I (pollUntil reached deadline fuel) := by
  induction fuel with
  | zero => exact keeps_stalled
  | succ fuel ih =>
    unfold pollUntil
    refine Action.keeps_get_bind fun c hc => ?_
    have hgo (wait : Option Nat) :
        Action.Keeps I (poll wait >>= fun _ => pollUntil reached deadline fuel) :=
      (hpoll wait).bind fun _ => ih
    dsimp only
    split
    · exact hc
    split
    · exact hc
    cases deadline with
    | none => exact hgo _ c hc
    | some instant =>
      dsimp only
      split
      · exact hc
      · exact hgo _ c hc

theorem keeps_await (hpoll : ∀ wait, Action.Keeps I (poll wait)) (wait : Patience)
    (reached : Connection → Bool) : Action.Keeps I (await wait reached) :=
  Action.keeps_get_bind fun c hc => keeps_pollUntil hpoll reached _ _ c hc

theorem keeps_awaitEnd (hpoll : ∀ wait, Action.Keeps I (poll wait))
    (hterminate : ∀ c, I c → I c.terminate) (wait : Patience) :
    Action.Keeps I (awaitEnd wait) := by
  intro c hc
  have h := keeps_await hpoll wait (fun c => c.state = .ended) c hc
  unfold awaitEnd
  cases hresult : await wait (fun c => c.state = .ended) c with
  | ok outcome c' =>
    rw [hresult] at h
    cases outcome with
    | reached => exact h
    | timedOut | notWaited => exact hterminate c' h
  | error halt c' =>
    rw [hresult] at h
    cases halt with
    | fault f => exact hterminate c' h
    | stalled => exact h

/-- A condition that the parts of closing a connection keep. -/
structure OutlastsClosing (I : Connection → Prop) : Prop where
  enter : ∀ {c state}, I c → state = .closeReceived ∨ state = .closeSent → I (c.enter state)
  send : ∀ v, Action.Keeps I (send (.close v))
  terminate : ∀ {c}, I c → I c.terminate

namespace OutlastsClosing

variable (hI : OutlastsClosing I)

include hI

theorem keeps_terminate :
    Action.Keeps I (modify Connection.terminate : Action Connection Unit) :=
  Action.keeps_modify fun _ => hI.terminate

theorem onClose : Action.Keeps I onClose := by
  have hanswer : Action.Keeps I (do
      modify (Connection.enter .closeReceived)
      Connection.send (.close {})
      modify Connection.terminate) :=
    (Action.keeps_modify fun _ hc => hI.enter hc (Or.inl rfl)).bind fun _ =>
      (hI.send {}).bind fun _ => hI.keeps_terminate
  unfold Connection.onClose
  refine Action.keeps_get_bind fun c hc => ?_
  split
  · exact hanswer c hc
  · exact hI.terminate hc

theorem abort (cause : Fault) : Action.Keeps I (abort cause) := by
  unfold Connection.abort
  refine Action.keeps_get_bind fun c hc => ?_
  split
  · exact ((hI.send _).tolerant.bind fun _ => hI.keeps_terminate) c hc
  · exact hI.terminate hc

/-- Closing only polls if it waits. -/
theorem close {wait : Patience} (hpoll : wait.waits = true → ∀ wait, Action.Keeps I (poll wait))
    (error : Option ErrorInfo) : Action.Keeps I (close error wait) := by
  have hwait : Action.Keeps I
      (if !wait.waits then pure .notWaited else awaitEnd wait : Action Connection WaitResult) := by
    split
    · exact Action.keeps_pure _
    · rename_i hwaits
      exact keeps_awaitEnd (hpoll (by simpa using hwaits)) (fun _ => hI.terminate) wait
  have hsend : Action.Keeps I (do
      Connection.send (.close { error })
      modify (Connection.enter .closeSent)
      if !wait.waits then return .notWaited
      awaitEnd wait) :=
    (hI.send { error }).bind fun _ =>
      (Action.keeps_modify fun _ hc => hI.enter hc (Or.inr rfl)).bind fun _ => hwait
  unfold Connection.close
  refine Action.keeps_get_bind fun c hc => ?_
  cases c.state with
  | ended => exact hc
  | start => exact hI.terminate hc
  | closeSent | discarding => exact hwait c hc
  | _ => exact hsend c hc

end OutlastsClosing

theorem keeps_driveWithin (hpoll : ∀ wait, Action.Keeps I (poll wait))
    (hclose : ∀ error wait, Action.Keeps I (close error wait))
    (hevaluate : ∀ c, I c → I c.evaluate) (shutdown : Shutdown) (fuel : Nat) :
    Action.Keeps I (driveWithin shutdown fuel) := by
  induction fuel with
  | zero => exact keeps_stalled
  | succ fuel ih =>
    unfold driveWithin
    refine Action.keeps_get_bind fun c hc => ?_
    have hgo (wait : Option Nat) :
        Action.Keeps I (do
          poll wait
          modify evaluate
          driveWithin shutdown fuel) :=
      (hpoll wait).bind fun _ => (Action.keeps_modify hevaluate).bind fun _ => ih
    split
    · exact hc
    split
    · exact keeps_discard (hclose none _) c hc
    · exact hgo _ c hc

end

theorem keeps_addSession {I : Connection → Prop} {settings : Option Settings.Session}
    (h : ∀ c result, I c → c.addSession settings = .ok result → I result.2) :
    Action.Keeps I (Call.addSession settings).perform := by
  refine Action.keeps_get_bind fun c hc => ?_
  cases hresult : c.addSession settings with
  | error f => exact hc
  | ok result => exact h c result hc hresult

theorem after_of_leaves {I : Connection → Prop} {c : Connection} {call : Call}
    (h : Action.Leaves I (call.perform c)) : I (c.after call) := by
  unfold after
  cases hresult : call.perform c with
  | ok a c' =>
    rw [hresult] at h
    exact h
  | error halt c' =>
    rw [hresult] at h
    exact h

/-- A condition that every single step of a connection keeps. -/
structure Stable (I : Connection → Prop) : Prop where
  openUp : ∀ wait, Action.Keeps I (openUp wait)
  close : ∀ error wait, Action.Keeps I (close error wait)
  poll : ∀ wait, Action.Keeps I (poll wait)
  onSession : ∀ channel (call : Session.Call), Action.Keeps I (onSession channel call.perform)
  addSession : ∀ {settings c result}, I c → c.addSession settings = .ok result → I result.2
  release : ∀ channel c, I c → I (c.release channel)
  evaluate : ∀ c, I c → I c.evaluate

namespace Stable

variable {I : Connection → Prop}

theorem awaitSession (hI : Stable I) (channel : UInt16) (state : Session.State) (wait : Patience) :
    Action.Keeps I (awaitSession channel state wait) := keeps_await hI.poll wait _

theorem beginOn (hI : Stable I) (channel : UInt16) (wait : Patience) :
    Action.Keeps I (beginOn channel wait) := by
  refine (hI.onSession channel (.begin wait)).bind fun _ => ?_
  split
  · exact Action.keeps_pure _
  · exact hI.awaitSession channel .mapped wait

theorem finishOn (hI : Stable I) (channel : UInt16) (error : Option ErrorInfo) (wait : Patience) :
    Action.Keeps I (finishOn channel error wait) := by
  refine (hI.onSession channel (.finish error)).bind fun _ => Action.keeps_get_bind fun c hc => ?_
  split
  · exact hc
  split
  · exact hc
  · exact hI.awaitSession channel .unmapped wait c hc

theorem drive (hI : Stable I) (shutdown : Shutdown) : Action.Keeps I (drive shutdown) :=
  Action.keeps_get_bind fun c hc =>
    keeps_driveWithin hI.poll hI.close hI.evaluate shutdown _ c hc

/-- Every call keeps a stable condition. -/
theorem perform (hI : Stable I) (call : Call) : Action.Keeps I call.perform := by
  cases call with
  | openUp wait => exact keeps_discard (hI.openUp wait)
  | close error wait => exact keeps_discard (hI.close error wait)
  | addSession settings => exact keeps_addSession fun _ _ => hI.addSession
  | beginOn channel wait => exact keeps_discard (hI.beginOn channel wait)
  | finishOn channel error wait => exact keeps_discard (hI.finishOn channel error wait)
  | onSession channel call => exact hI.onSession channel call
  | release channel => exact Action.keeps_modify (hI.release channel)
  | evaluate => exact Action.keeps_modify hI.evaluate
  | awaitSession channel state wait => exact keeps_discard (hI.awaitSession channel state wait)
  | poll wait => exact hI.poll wait
  | drive shutdown => exact hI.drive shutdown

theorem after (hI : Stable I) {c : Connection} (hc : I c) (call : Call) : I (c.after call) :=
  after_of_leaves (hI.perform call c hc)

/-- A stable condition holds after every run. -/
theorem run (hI : Stable I) {c : Connection} (hc : I c) (calls : List Call) :
    I (Connection.run calls c) := by
  induction calls generalizing c with
  | nil => exact hc
  | cons call calls ih => exact ih (hI.after hc call)

end Stable

/-! ## Connections to begin with -/

/-- A transport over a stream that brings some octets and takes everything. -/
def transportOver (octets : Bytes) : Transport :=
  Transport.create {} { horizon := 1000, reads := [.octets octets] } true

/-- A connection over such a transport that has not been opened. -/
def overOctets (octets : Bytes) : Connection :=
  create (transportOver octets) {} "client" fun _ => "session"

/-- A Begin of the peer. -/
def peerBegin (remoteChannel : Option UInt16) : Frame :=
  .performative (.begin { remoteChannel, incomingWindow := 10, outgoingWindow := 10 })

/-- What a peer sends that opens the connection and begins a session on its channel 5. -/
def firstFrames : List (UInt16 × Frame) :=
  [(0, .performative (.openFrame { containerId := "peer" })), (5, peerBegin none)]

/-- A connection with such a peer, which has more to say. -/
def overFrames (frames : List (UInt16 × Frame)) : Connection :=
  overOctets (protocolHeader ++ Transport.wire (firstFrames ++ frames))

end Amqp.Connection
