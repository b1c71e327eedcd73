import Amqp.Proofs.Session.Calls
import Amqp.Proofs.Session.Sending

/-!
# Terms that sessions meet

A session changes its links, handles and windows at will, but its seat only by entering a state or
by meeting the peer's channel in a Begin.  `Terms` say what an action keeps of the seat and of the
carrier, what it may leave when it stops short, and which faults it may stop with.  Terms that hold
for single frames hold for all that a session does upon a frame of the peer (`governs_linkFrame`,
`governs_onEnd`, `meets_onBegin`) or a call of its owner (`governs_perform`).
-/

namespace Amqp

/-- Whether a performative is handed to the links of a session. -/
def Performative.isOfLink : Performative → Bool
  | .attach _ | .flow _ | .transfer _ | .disposition _ | .detach _ => true
  | _ => false

namespace Session

/-- Whether a handle of the peer is free, or leads to the link of a given name. -/
def Yields (handle : UInt32) (name : String) (s : Session) : Prop :=
  ∀ holder, s.inputHandles.get? handle = some holder → holder = name

/-! ## Terms -/

/-- What an action of a session keeps of its seat and its carrier, what it may leave when it stops
short, and which faults it may stop with on its own. -/
structure Terms (κ : Type) where
  kept : Seat → κ → Prop
  stopped : Halt → Seat → κ → Prop
  raises : Fault → Prop

namespace Terms

variable {κ α β : Type} {T : Terms κ} {s : Session}

/-- Whether a result meets the terms. -/
def Meets (T : Terms κ) : EStateM.Result Halt (Session × κ) α → Prop
  | .ok _ y => T.kept y.1.seat y.2
  | .error halt y => T.stopped halt y.1.seat y.2

/-- Whether an action of a session meets the terms on every carrier. -/
def Governs (T : Terms κ) (x : Acting κ α) (s : Session) : Prop :=
  ∀ k, T.kept s.seat k → T.Meets (x (s, k))

/-- Terms that hold for single frames of a session and for the faults that it may stop with.  All
faults that concern a session only are among them. -/
structure Hold [FrameCarrier κ] (T : Terms κ) : Prop where
  carry : ∀ {seat k p}, p.isOfSession = true → T.kept seat k →
    (∃ k', FrameCarrier.carry seat.channel p k = .ok () k' ∧ T.kept seat k') ∨
      ∃ halt k', FrameCarrier.carry seat.channel p k = .error halt k' ∧ T.stopped halt seat k'
  raise : ∀ {f seat k}, T.raises f → T.kept seat k → T.stopped (.fault f) seat k
  isSessionLocal : ∀ {f}, f.isSessionLocal = true → T.raises f

/-- Whether a session may enter a state. -/
def Enters (T : Terms κ) (state : State) : Prop :=
  ∀ {seat k}, T.kept seat k → T.kept { seat with state } k

/-! ### Steps -/

theorem governs_pure (a : α) : T.Governs (pure a) s := fun _ hk => hk

theorem Governs.bind {x : Acting κ α} {f : α → Acting κ β} (hx : T.Governs x s)
    (hf : ∀ a s', T.Governs (f a) s') : T.Governs (x >>= f) s := by
  intro k hk
  have hmeets := hx k hk
  cases hresult : x (s, k) with
  | ok a y =>
    rw [hresult] at hmeets
    rw [Action.bind_of_ok hresult]
    exact hf a y.1 y.2 hmeets
  | error halt y =>
    rw [hresult] at hmeets
    rw [Action.bind_of_error hresult]
    exact hmeets

open Acting

theorem governs_current_bind {f : Session → Acting κ β} (hf : T.Governs (f s) s) :
    T.Governs (current >>= f) s := hf

theorem governs_update {change : Session → Session} (hseat : (change s).seat = s.seat) :
    T.Governs (update change) s := fun k hk => (congrArg (T.kept · k) hseat).mpr hk

theorem governs_update_bind {change : Session → Session} {f : Unit → Acting κ β}
    (hseat : (change s).seat = s.seat) (hf : T.Governs (f ()) (change s)) :
    T.Governs (update change >>= f) s := fun k hk =>
  hf k ((congrArg (T.kept · k) hseat).mpr hk)

variable [FrameCarrier κ]

section

variable (hT : T.Hold)

include hT

theorem governs_raise {f : Fault} (hf : T.raises f) : T.Governs (α := α) (Action.raise f) s :=
  fun _ hk => hT.raise hf hk

theorem governs_ofExcept_bind {result : Except Fault α} {f : α → Acting κ β}
    (hraises : ∀ fault, result = .error fault → T.raises fault)
    (hf : ∀ a, result = .ok a → T.Governs (f a) s) :
    T.Governs (Action.ofExcept result >>= f) s := by
  cases result with
  | error fault => exact governs_raise hT (hraises fault rfl)
  | ok a => exact hf a rfl

theorem governs_emit {p : Performative} (hp : p.isOfSession = true) : T.Governs (emit p) s := by
  intro k hk
  rcases hT.carry hp hk with ⟨k', hcarry, hkept⟩ | ⟨halt, k', hcarry, hstopped⟩
  · rw [emit_of_ok hcarry]
    exact hkept
  · rw [emit_of_error hcarry]
    exact hstopped

theorem governs_sendFlow (flow : Option Flow) : T.Governs (sendFlow flow) s :=
  governs_current_bind (governs_emit hT rfl)

theorem governs_sendOutputs (outputs : List Link.Output) : T.Governs (sendOutputs outputs) s := by
  induction outputs generalizing s with
  | nil => exact governs_pure ()
  | cons output outputs ih =>
    have houtput : T.Governs (sendOutput output) s := by
      cases output with
      | flow v => exact governs_sendFlow hT _
      | _ => exact governs_emit hT rfl
    exact houtput.bind fun _ _ => ih

theorem governs_commit {change : Session × List Link.Output} (hseat : change.1.seat = s.seat) :
    T.Governs (commit change) s := governs_update_bind hseat (governs_sendOutputs hT _)

theorem governs_transition {state : State} (hstate : T.Enters state) :
    T.Governs (transition state) s :=
  fun k hk => governs_sendOutputs hT _ (s := (s.enter state).1) k (hstate hk)

end

/-! ### Frames of links -/

theorem seat_attachKnown (attach : Attach) (l : Link) (s : Session) :
    (s.attachKnown attach l).1.seat = s.seat := rfl

theorem seat_attachNew {attach : Attach} {change : Session × List Link.Output}
    (h : s.attachNew attach = .ok change) : change.1.seat = s.seat := by
  unfold attachNew at h
  cases hhandle : s.freeHandle with
  | error f =>
    rw [hhandle] at h
    cases h
  | ok handle =>
    cases hlink : Link.ofAttach attach handle s.linkSettings with
    | error f =>
      simp only [hhandle, hlink, bind, Except.bind] at h
      cases h
    | ok l =>
      simp only [hhandle, hlink, bind, Except.bind] at h
      cases h
      rfl

theorem seat_spreadFlow (flow : Flow) (s : Session) : (s.spreadFlow flow).1.seat = s.seat := by
  unfold spreadFlow
  split_ifs <;> rfl

/-- Whether the terms allow the faults that a frame can meet when it has passed the checks of the
session: those of a new link, and those of the link that a transfer is for. -/
def Admits (T : Terms κ) (s : Session) : Performative → Prop
  | .attach attach => s.Yields attach.handle attach.name → s.links.get? attach.name = none →
      ∀ f, s.attachNew attach = .error f → T.raises f
  | .transfer t => ∀ name l, s.inputHandles.get? t.handle = some name →
      s.links.get? name = some l → ∀ f, l.onTransfer t = .error f → T.raises f
  | _ => True

section

variable (hT : T.Hold)

include hT

theorem raises_of_link {name : String} {f : Fault} (h : s.link name = .error f) : T.raises f := by
  unfold Session.link at h
  split at h
  · cases h
  · cases h
    exact hT.isSessionLocal rfl

theorem governs_abort {error : ErrorInfo} {f : Fault} (hdiscard : T.Enters .discarding)
    (hf : f.isSessionLocal = true) : T.Governs (abort error f) s :=
  (governs_emit hT (p := .endFrame { error := some error }) rfl).bind fun _ _ =>
    (governs_transition hT hdiscard).bind fun _ _ => governs_raise hT (hT.isSessionLocal hf)

theorem governs_onAttach {attach : Attach} (hdiscard : T.Enters .discarding)
    (hadmits : T.Admits s (.attach attach)) : T.Governs (onAttach attach) s := by
  have hknown (l : Link) : T.Governs (commit (s.attachKnown attach l)) s :=
    governs_commit hT (seat_attachKnown attach l s)
  have hnew (hyields : s.Yields attach.handle attach.name)
      (hname : s.links.get? attach.name = none) :
      T.Governs (Action.ofExcept (s.attachNew attach) >>= commit) s :=
    governs_ofExcept_bind hT (hadmits hyields hname)
      fun _ hchange => governs_commit hT (seat_attachNew hchange)
  intro k
  rcases onAttach_cases (κ := κ) attach s with
    ⟨holder, heq⟩ | ⟨hyields, ⟨l, -, heq⟩ | ⟨hname, heq⟩⟩ <;> rw [heq]
  · exact governs_abort hT hdiscard rfl k
  · exact hknown l k
  · exact hnew hyields hname k

theorem governs_onFlow (flow : Flow) (hdiscard : T.Enters .discarding) :
    T.Governs (onFlow flow) s := by
  unfold onFlow
  refine governs_update_bind rfl (governs_current_bind ?_)
  split
  · exact governs_commit hT (seat_spreadFlow flow _)
  split
  · exact governs_abort hT hdiscard rfl
  · exact governs_ofExcept_bind hT (fun _ => raises_of_link hT) fun _ _ => governs_commit hT rfl

theorem governs_replenish : T.Governs replenish s := by
  unfold replenish
  refine governs_current_bind ?_
  split_ifs
  · exact governs_update_bind rfl (governs_sendFlow hT none)
  · exact governs_pure ()

theorem governs_onTransfer {t : Transfer} (hdiscard : T.Enters .discarding)
    (hadmits : T.Admits s (.transfer t)) : T.Governs (onTransfer t) s := by
  unfold onTransfer
  refine governs_update_bind rfl (governs_current_bind ?_)
  split
  · exact governs_abort hT hdiscard rfl
  · rename_i name hname
    refine governs_ofExcept_bind hT (fun _ => raises_of_link hT) fun l hl => ?_
    refine governs_ofExcept_bind hT (hadmits name l hname (links_of_link hl)) fun change _ => ?_
    have hcommit : T.Governs (commit (s.countIncoming.withLink name change.1, change.2))
        s.countIncoming := governs_commit hT rfl
    exact hcommit.bind fun _ _ => governs_replenish hT

theorem governs_onDisposition (d : Disposition) : T.Governs (onDisposition d) s :=
  governs_current_bind (governs_commit hT rfl)

theorem governs_onDetach (detach : Detach) (hdiscard : T.Enters .discarding) :
    T.Governs (onDetach detach) s := by
  unfold onDetach
  refine governs_current_bind ?_
  split
  · exact governs_abort hT hdiscard rfl
  · refine governs_ofExcept_bind hT (fun _ => raises_of_link hT) fun l _ => ?_
    refine Governs.bind (governs_commit hT rfl) fun _ s' => ?_
    split_ifs
    · exact governs_update (seat_remove _ s')
    · exact governs_pure ()

theorem governs_linkFrame {p : Performative} (remoteChannel : UInt16) (hp : p.isOfLink = true)
    (hdiscard : T.Enters .discarding) (hadmits : T.Admits s p) :
    T.Governs (dispatch remoteChannel p) s := by
  cases p with
  | attach v => exact governs_onAttach hT hdiscard hadmits
  | flow v => exact governs_onFlow hT v hdiscard
  | transfer v => exact governs_onTransfer hT hdiscard hadmits
  | disposition v => exact governs_onDisposition hT v
  | detach v => exact governs_onDetach hT v hdiscard
  | _ => cases hp

/-! ### Begin and End -/

theorem governs_onEnd (hreceived : T.Enters .endReceived) (hunmapped : T.Enters .unmapped) :
    T.Governs onEnd s := by
  have hrest (s : Session) : T.Governs (transition .unmapped >>= fun _ => update dropLinks) s :=
    (governs_transition hT hunmapped).bind fun _ _ => governs_update rfl
  unfold onEnd
  refine governs_current_bind ?_
  dsimp only
  split_ifs
  · exact (governs_transition hT hreceived).bind fun _ _ =>
      (governs_emit hT (p := .endFrame {}) rfl).bind fun _ => hrest
  · exact hrest s

/-- A session that waits for a Begin, or has not begun, meets the peer's channel and then enters
states only. -/
theorem meets_onBegin (henters : ∀ state, T.Enters state) {remoteChannel : UInt16} (v : Begin)
    (hstate : s.state = .beginSent ∨ s.state = .unmapped) {k : κ}
    (hk : T.kept { s.seat with remoteChannel := some remoteChannel } k) :
    T.Meets (onBegin remoteChannel v (s, k)) := by
  have hmapped : T.Governs (transition .mapped)
      { s.learnBegin v with remoteChannel := some remoteChannel } :=
    governs_transition hT (henters .mapped)
  have hanswered : T.Governs
      (transition .beginReceived >>= fun _ => sendBegin >>= fun _ => transition .mapped)
      { s.learnBegin v with remoteChannel := some remoteChannel } :=
    (governs_transition hT (henters .beginReceived)).bind fun _ s' =>
      Governs.bind (x := sendBegin)
        (governs_current_bind (governs_emit hT (p := .begin s'.toBegin) rfl))
        fun _ _ => governs_transition hT (henters .mapped)
  have hsame : (s.learnBegin v).state = s.state := rfl
  unfold onBegin
  rw [update_bind, current_bind, hsame]
  rcases hstate with hstate | hstate <;> rw [hstate]
  · exact hmapped k hk
  · exact hanswered k hk

omit hT in
/-- A session that has met the peer before only learns what a Begin says. -/
theorem onBegin_of_met (remoteChannel : UInt16) (v : Begin) (hsent : s.state ≠ .beginSent)
    (hunmapped : s.state ≠ .unmapped) (k : κ) :
    onBegin remoteChannel v (s, k) = .ok () (s.learnBegin v, k) := by
  have hsame : (s.learnBegin v).state = s.state := rfl
  unfold onBegin
  rw [update_bind, current_bind, hsame]
  cases hstate : s.state with
  | beginSent => exact absurd hstate hsent
  | unmapped => exact absurd hstate hunmapped
  | _ => rfl

theorem governs_sendTransfers (ts : List Transfer) : T.Governs (sendTransfers ts) s := by
  induction ts generalizing s with
  | nil => exact governs_pure ()
  | cons t ts ih =>
    exact (governs_emit hT (p := .transfer t) rfl).bind fun _ _ => governs_update_bind rfl ih

end

/-! ### Calls of the owner -/

omit [FrameCarrier κ] in
theorem Governs.discard {x : Acting κ α} (h : T.Governs x s) : T.Governs (discard x) s := by
  have hbind : (Functor.discard x : Acting κ Unit) = x >>= fun _ => pure () := rfl
  rw [hbind]
  exact h.bind fun _ _ => governs_pure ()

section

variable (hT : T.Hold) (hraises : ∀ f, T.raises f)

include hT hraises

theorem governs_check_bind {result : Except Fault α} {f : α → Acting κ β}
    (hf : ∀ a, T.Governs (f a) s) : T.Governs (Action.ofExcept result >>= f) s :=
  governs_ofExcept_bind hT (fun f _ => hraises f) fun a _ => hf a

theorem governs_adopt {call : Session → Except Fault (α × Session)}
    (h : ∀ result, call s = .ok result → result.2.seat = s.seat) : T.Governs (adopt call) s :=
  governs_current_bind (governs_ofExcept_bind hT (fun f _ => hraises f) fun result hresult =>
    governs_update (h result hresult))

theorem governs_begin (hsent : T.Enters .beginSent) (wait : Patience) :
    T.Governs (begin wait) s := by
  have hbegin : T.Governs (sendBegin >>= fun _ => transition .beginSent) s :=
    Governs.bind (governs_current_bind (governs_emit hT (p := .begin s.toBegin) rfl))
      fun _ _ => governs_transition hT hsent
  unfold begin
  refine governs_current_bind ?_
  dsimp only
  split_ifs
  · exact governs_raise hT (hraises _)
  · exact governs_raise hT (hraises _)
  · exact governs_raise hT (hraises _)
  · exact hbegin

omit hraises in
theorem governs_finish (hsent : T.Enters .endSent) (hdiscard : T.Enters .discarding)
    (error : Option ErrorInfo) : T.Governs (finish error) s := by
  unfold finish
  refine governs_current_bind ?_
  split
  · refine (governs_emit hT (p := .endFrame { error }) rfl).bind fun _ _ => ?_
    refine governs_transition hT ?_
    split
    · exact hdiscard
    · exact hsent
  · exact governs_pure ()

theorem governs_attach (name : String) : T.Governs (attach name) s := by
  unfold attach
  refine governs_current_bind (governs_check_bind hT hraises fun l => ?_)
  split_ifs
  · exact governs_commit hT rfl
  · exact governs_update rfl

theorem governs_detach (name : String) (close : Bool) (error : Option ErrorInfo) :
    T.Governs (detach name close error) s := by
  unfold detach
  refine governs_current_bind (governs_check_bind hT hraises fun l => ?_)
  split_ifs
  · exact governs_update (seat_remove name s)
  · exact governs_commit hT rfl

theorem governs_sendDelivery (t : Transfer) : T.Governs (sendDelivery t) s := by
  intro k hk
  unfold sendDelivery
  rw [Action.get_bind]
  dsimp only
  split_ifs
  · exact hk
  · exact hk
  refine governs_check_bind hT hraises (fun ts => ?_) k hk
  split_ifs
  · exact governs_pure _
  · exact (governs_sendTransfers hT _).bind fun _ _ => governs_pure _

theorem governs_send (now : Nat) (name : String) (payload : Bytes) (settled : Bool) :
    T.Governs (send now name payload settled) s := by
  unfold send
  refine governs_current_bind ?_
  split_ifs
  · exact governs_pure _
  refine governs_check_bind hT hraises fun v => governs_check_bind hT hraises fun drafted => ?_
  obtain ⟨t | t, v'⟩ := drafted
  · exact governs_pure _
  · refine governs_update_bind rfl ((governs_sendDelivery hT hraises t).bind fun outcome s' => ?_)
    cases outcome with
    | sent id => exact governs_update_bind rfl (governs_pure _)
    | _ => exact governs_pure _

/-- Upon a call a session enters no state but those of one that waits for an answer or is over. -/
theorem governs_perform (hbegin : T.Enters .beginSent) (hend : T.Enters .endSent)
    (hdiscard : T.Enters .discarding) (call : Call) : T.Governs call.perform s := by
  cases call with
  | begin wait => exact governs_begin hT hraises hbegin wait
  | finish error => exact governs_finish hT hend hdiscard error
  | addSender unique target settings =>
    exact governs_adopt hT hraises fun _ h => seat_of_adds (adds_addSender h)
  | addReceiver unique source settings =>
    exact governs_adopt hT hraises fun _ h => seat_of_adds (adds_addReceiver h)
  | attach name => exact governs_attach hT hraises name
  | detach name close error => exact governs_detach hT hraises name close error
  | send now name payload settled =>
    exact (governs_send hT hraises now name payload settled).discard
  | sendDelivery transfer => exact (governs_sendDelivery hT hraises transfer).discard
  | sendFlow flow => exact governs_sendFlow hT flow
  | grantCredit name credit =>
    exact governs_current_bind (governs_check_bind hT hraises fun _ =>
      governs_check_bind hT hraises fun _ => governs_commit hT rfl)
  | settle name deliveryId state =>
    exact governs_current_bind (governs_check_bind hT hraises fun _ =>
      governs_check_bind hT hraises fun _ => governs_commit hT rfl)
  | receive name => exact governs_adopt hT hraises fun _ h => seat_of_receive h
  | collectOutcome name deliveryId =>
    exact governs_adopt hT hraises fun _ h => seat_of_collectOutcome h
  | evaluate now => exact governs_update rfl

end

end Terms

end Session

end Amqp
