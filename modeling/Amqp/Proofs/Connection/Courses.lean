import Amqp.Proofs.Connection.Seating

/-!
# Courses of calls

A call that waits for the peer polls until it has waited enough, and a drive does so until the end.
A `Course` takes them apart into steps that do not wait, and tells which frames the polls have
received, each with the connection that has received it.  Every run has a course (`course_of_run`),
so a steady condition holds after a run if every Begin on its course keeps it (`Steady.course`).
-/

namespace Amqp.Connection

/-! ## Calls that do not wait -/

/-- Whether a call may wait for frames of the peer. -/
def Call.waits : Call → Bool
  | openUp wait | close _ wait | beginOn _ wait | finishOn _ _ wait => wait.waits
  | awaitSession .. | poll _ | drive _ => true
  | _ => false

section

variable {α : Type} {I : Connection → Prop} {c : Connection}

theorem leaves_of_discard {x : Action Connection α}
    (h : Action.Leaves I ((discard x : Action Connection Unit) c)) : Action.Leaves I (x c) := by
  have hbind : (Functor.discard x : Action Connection Unit) = x >>= fun _ => pure () := rfl
  rw [hbind] at h
  cases hresult : x c with
  | ok a d =>
    rw [Action.bind_of_ok hresult] at h
    exact h
  | error halt d =>
    rw [Action.bind_of_error hresult] at h
    exact h

/-- Opening up to the Open that is sent. -/
def opening : Action Connection Unit := do
  transporting Transport.ensureConnected
  transporting Transport.negotiateTls
  transporting (Transport.exchange protocolHeader)
  modify (enter .headersExchanged)
  send (.openFrame (← get).toOpen)
  modify (enter .openSent)

theorem openUp_of_start (hstate : c.state = .start) (wait : Patience) :
    openUp wait c = (opening >>= fun _ =>
      if !wait.waits then pure .notWaited else await wait fun c => c.state = .opened) c := by
  unfold openUp opening
  rw [Action.get_bind]
  simp only [hstate, bind_assoc]
  rfl

/-- Opening is followed by a wait. -/
theorem openUp_of_waits {wait : Patience} (hwait : wait.waits = true) (hstate : c.state = .start) :
    openUp wait c = (openUp .zero >>= fun _ => await wait fun c => c.state = .opened) c := by
  rw [openUp_of_start hstate, hwait]
  cases hopening : opening c with
  | ok _ d =>
    have hzero : openUp .zero c = .ok .notWaited d := by
      rw [openUp_of_start hstate, Action.bind_of_ok hopening]
      rfl
    rw [Action.bind_of_ok hopening, Action.bind_of_ok hzero]
    rfl
  | error halt d =>
    have hzero : openUp .zero c = .error halt d := by
      rw [openUp_of_start hstate, Action.bind_of_error hopening]
    rw [Action.bind_of_error hopening, Action.bind_of_error hzero]

theorem close_of_closing {error : Option ErrorInfo}
    (hstate : c.state = .closeSent ∨ c.state = .discarding) (wait : Patience) :
    close error wait c =
      (if !wait.waits then pure .notWaited
        else awaitEnd wait : Action Connection WaitResult) c := by
  unfold close
  rw [Action.get_bind]
  rcases hstate with hstate | hstate <;> rw [hstate]

/-- Closing is followed by a wait for the end, unless there is nothing to wait for. -/
theorem close_of_waits {wait : Patience} (hwait : wait.waits = true) (error : Option ErrorInfo)
    (c : Connection) :
    close error wait c = close error .zero c ∨
      close error wait c = (close error .zero >>= fun _ => awaitEnd wait) c := by
  cases hsends : c.state.sendsClose with
  | true =>
    right
    rw [close_of_sendsClose hsends]
    cases hsend : send (.close { error }) c with
    | ok _ d =>
      have hzero : close error .zero c = .ok .notWaited (d.enter .closeSent) :=
        close_of_sent hsends hsend
      rw [Action.bind_of_ok hsend, Action.bind_of_ok hzero, hwait]
      rfl
    | error halt d =>
      have hzero : close error .zero c = .error halt d := by
        rw [close_of_sendsClose hsends, Action.bind_of_error hsend]
      rw [Action.bind_of_error hsend, Action.bind_of_error hzero]
  | false =>
    by_cases hclosing : c.state = .closeSent ∨ c.state = .discarding
    · right
      have hzero : close error .zero c = .ok .notWaited c := close_of_closing hclosing .zero
      rw [close_of_closing hclosing, Action.bind_of_ok hzero, hwait]
      rfl
    · left
      unfold close
      rw [Action.get_bind, Action.get_bind]
      cases hstate : c.state with
      | ended | start => rfl
      | closeSent => exact absurd (Or.inl hstate) hclosing
      | discarding => exact absurd (Or.inr hstate) hclosing
      | _ =>
        rw [hstate] at hsends
        cases hsends

theorem after_addSession {settings : Option Settings.Session} {result : UInt16 × Connection}
    (h : c.addSession settings = .ok result) : c.after (.addSession settings) = result.2 := by
  have hperform : (Call.addSession settings).perform c = .ok () result.2 := by
    change (get >>= fun c => Action.ofExcept (addSession settings c) >>= fun result =>
      set result.2 : Action Connection Unit) c = _
    rw [Action.get_bind, h]
    rfl
  unfold after
  rw [hperform]
  rfl

end

/-! ## Courses -/

/-- What a connection becomes by steps that do not wait and by polls, which receive frames. -/
inductive Course (c : Connection) : List (Connection × UInt16 × Performative) → Connection → Prop
  | start : Course c [] c
  | act {taken : List (Connection × UInt16 × Performative)} {d : Connection}
      (h : Course c taken d) (call : Call) (hcall : call.waits = false) :
      Course c taken (d.after call)
  | poll {taken : List (Connection × UInt16 × Performative)} {d : Connection}
      (h : Course c taken d) (wait : Option Nat) :
      Course c (taken ++ (d.received wait).toList.map (Prod.mk d)) (d.after (.poll wait))
  | terminate {taken : List (Connection × UInt16 × Performative)} {d : Connection}
      (h : Course c taken d) : Course c taken d.terminate

/-- Calls that do not wait go on with a course and receive nothing. -/
theorem Course.run {c d : Connection} {taken : List (Connection × UInt16 × Performative)}
    (h : Course c taken d) {calls : List Call} (hcalls : ∀ call ∈ calls, call.waits = false) :
    Course c taken (Connection.run calls d) := by
  induction calls generalizing d with
  | nil => exact h
  | cons call calls ih =>
    obtain ⟨hcall, hrest⟩ := List.forall_mem_cons.1 hcalls
    exact ih (h.act call hcall) hrest

/-- Whatever is called goes on with a course. -/
theorem stable_course (c : Connection) : Stable fun d => ∃ taken, Course c taken d := by
  have hact {d : Connection} (call : Call) (hcall : call.waits = false)
      (h : ∃ taken, Course c taken d) :
      Action.Leaves (fun d => ∃ taken, Course c taken d) (call.perform d) :=
    Session.leaves_iff.2 (h.imp fun _ h => h.act call hcall)
  have hpoll (wait : Option Nat) : Action.Keeps (fun d => ∃ taken, Course c taken d)
      (poll wait) := fun _ ⟨_, h⟩ => Session.leaves_iff.2 ⟨_, h.poll wait⟩
  have hterminate (d : Connection) (h : ∃ taken, Course c taken d) :
      ∃ taken, Course c taken d.terminate := h.imp fun _ => Course.terminate
  refine ⟨fun wait d hd => ?_, fun error wait d hd => ?_, hpoll, fun channel call d hd => ?_,
    fun {settings d result} hd hresult => ?_, fun channel d hd => ?_, fun d hd => ?_⟩
  · have hzero := leaves_of_discard (hact (.openUp .zero) rfl hd)
    cases hwait : wait.waits with
    | false => exact leaves_of_discard (hact (.openUp wait) hwait hd)
    | true =>
      by_cases hstate : d.state = .start
      · rw [openUp_of_waits hwait hstate]
        exact Action.leaves_bind hzero (fun _ d' _ hd' => keeps_await hpoll wait _ d' hd')
          fun _ => id
      · rw [openUp_of_ne_start hstate]
        exact hd
  · have hzero := leaves_of_discard (hact (.close error .zero) rfl hd)
    cases hwait : wait.waits with
    | false => exact leaves_of_discard (hact (.close error wait) hwait hd)
    | true =>
      rcases close_of_waits hwait error d with h | h
      · rw [h]
        exact hzero
      · rw [h]
        exact Action.leaves_bind hzero
          (fun _ d' _ hd' => keeps_awaitEnd hpoll hterminate wait d' hd') fun _ => id
  · exact hact (.onSession channel call) rfl hd
  · rw [← after_addSession hresult]
    exact hd.imp fun _ h => h.act (.addSession settings) rfl
  · exact hd.imp fun _ h => h.act (.release channel) rfl
  · exact hd.imp fun _ h => h.act .evaluate rfl

/-- Every run has a course. -/
theorem course_of_run (calls : List Call) (c : Connection) :
    ∃ taken, Course c taken (run calls c) := (stable_course c).run ⟨[], .start⟩ calls

/-! ## Steady conditions -/

namespace Steady

variable {I : Connection → Prop} (hI : Steady I)

include hI

theorem act {c : Connection} {call : Call} (hcall : call.waits = false) (hc : I c) :
    I (c.after call) := by
  refine after_of_leaves ?_
  have hnever {wait : Patience} (hwait : wait.waits = false) :
      wait.waits = true → ∀ wait, Action.Keeps I (Connection.poll wait) :=
    fun h => by rw [hwait] at h; cases h
  cases call with
  | openUp wait => exact leaves_discard (hI.openUp (hnever hcall) c hc)
  | close error wait => exact leaves_discard (hI.outlastsClosing.close (hnever hcall) error c hc)
  | addSession settings => exact keeps_addSession (fun _ _ => hI.addSession) c hc
  | beginOn channel wait =>
    refine leaves_discard (((hI.perform (.begin wait) channel).bind fun _ => ?_) c hc)
    rw [show wait.waits = false from hcall]
    exact Action.keeps_pure _
  | finishOn channel error wait =>
    refine leaves_discard (((hI.perform (.finish error) channel).bind fun _ =>
      Action.keeps_get_bind fun d hd => ?_) c hc)
    rw [show wait.waits = false from hcall]
    split <;> exact hd
  | onSession channel call => exact hI.perform call channel c hc
  | release channel => exact hI.release channel hc
  | evaluate => exact hI.evaluate hc
  | awaitSession channel state wait | poll wait | drive shutdown => cases hcall

/-- A steady condition holds at the end of a course if it is kept by each Begin on it. -/
theorem course {c c' : Connection} {taken : List (Connection × UInt16 × Performative)}
    (h : Course c taken c') (hc : I c)
    (hbegin : ∀ d channel v, (d, channel, Performative.begin v) ∈ taken →
      ∀ carrier, I { d with carrier } →
        Action.Leaves I (Connection.onBegin channel v { d with carrier })) : I c' := by
  induction h with
  | start => exact hc
  | act h call hcall ih => exact hI.act hcall (ih hbegin)
  | terminate h ih => exact hI.terminate (ih hbegin)
  | @poll taken d h wait ih =>
    have hd := ih fun d' channel v hmem => hbegin d' channel v (List.mem_append_left _ hmem)
    refine after_of_leaves (hI.poll hd fun channel v d' hreceive hd' => ?_)
    have hreceived : d.received wait = some (channel, .begin v) := by
      unfold received
      rw [hreceive]
    obtain ⟨t, -, rfl⟩ := transporting_eq_ok hreceive
    refine hbegin d channel v (List.mem_append_right _ ?_) _ hd'
    rw [hreceived]
    exact List.mem_singleton_self _

end Steady

end Amqp.Connection
