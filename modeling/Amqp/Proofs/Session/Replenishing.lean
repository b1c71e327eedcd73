import Amqp.Proofs.Session.HandleBounds

/-!
# The incoming window

A session counts every transfer against its incoming window, and opens the window again with a flow
of its own when it is used up.  Nothing else touches the window or what the session counts
(`Undisturbed`), so after `n` transfers there is left what `n` leaves of the last window, and the
window has been opened once for each full one (`replenished_of_run`).
-/

namespace Amqp

/-- The flow that a performative is, if it concerns the session and not one of its links. -/
def Performative.windowFlow? : Performative → Option Flow
  | .flow v => if v.handle = none then some v else none
  | _ => none

namespace Session

open Amqp.Action Acting

/-! ## What leaves the window alone -/

/-- The flows among frames that concern the session. -/
def windowFlows (frames : List (UInt16 × Performative)) : List Flow :=
  frames.filterMap fun f => f.2.windowFlow?

theorem windowFlows_append (frames : List (UInt16 × Performative)) (channel : UInt16)
    (p : Performative) : windowFlows (frames ++ [(channel, p)]) =
      windowFlows frames ++ p.windowFlow?.toList := by
  unfold windowFlows
  rw [List.filterMap_append]
  cases hp : p.windowFlow? <;> simp [hp]

/-- What is left of the incoming window, and the size in which it is opened. -/
def intake (s : Session) : UInt32 × UInt32 := (s.incomingWindow, s.targetIncomingWindow)

/-- Whether a session has a certain window, and has sent certain flows of its own. -/
structure Undisturbed {κ : Type} (i : UInt32 × UInt32) (flows : List Flow)
    (y : Session × Recorder κ) : Prop where
  intake_eq : y.1.intake = i
  windowFlows_eq : windowFlows y.2.frames = flows

section

variable {κ α : Type} {i : UInt32 × UInt32} {flows : List Flow} {s s' : Session} {r : Recorder κ}

theorem Undisturbed.change (h : Undisturbed i flows (s, r)) (hs' : s'.intake = s.intake) :
    Undisturbed i flows (s', r) :=
  ⟨hs'.trans h.intake_eq, h.windowFlows_eq⟩

theorem intake_register (l : Link) (s : Session) : (s.register l).intake = s.intake := rfl

theorem intake_remove (name : String) (s : Session) : (s.remove name).intake = s.intake := by
  unfold remove
  split <;> rfl

theorem intake_spreadFlow (flow : Flow) (s : Session) :
    (s.spreadFlow flow).1.intake = s.intake := by
  unfold spreadFlow
  split_ifs <;> rfl

theorem intake_followConnection (connection : Connection.State) (s : Session) :
    (s.followConnection connection).intake = s.intake := by
  unfold followConnection
  dsimp only
  split_ifs <;> rfl

theorem undisturbed_update {change : Session → Session} (h : ∀ s, (change s).intake = s.intake) :
    Keeps (Undisturbed (κ := κ) i flows) (update change) := fun _ hy => hy.change (h _)

/-- Whether the flows among outputs are on handles. -/
def IsAddressed (outputs : List Link.Output) : Prop := ∀ f, .flow f ∈ outputs → f.handle ≠ none

theorem isAddressed_of_speaksOn {handle : UInt32} {outputs : List Link.Output}
    (h : Link.SpeaksOn handle outputs) : IsAddressed outputs := fun f hf => by
  have hhandle : f.handle = some handle := h _ hf
  rw [hhandle]
  exact Option.some_ne_none _

theorem isAddressed_visit {react : Link → Link × List Link.Output}
    (h : ∀ l, IsAddressed (react l).2) (names : List String) (links : Table String Link) :
    IsAddressed (visit react names links).2 := by
  induction names generalizing links with
  | nil => exact fun _ hf => absurd hf List.not_mem_nil
  | cons name names ih =>
    rw [visit]
    cases links.get? name with
    | none => exact ih links
    | some l => exact fun f hf => (List.mem_append.1 hf).elim (h l f) (ih _ f)

theorem isAddressed_enter (state : State) (s : Session) : IsAddressed (s.enter state).2 := by
  intro f hf
  obtain ⟨outputs, houtputs, hf⟩ := List.mem_flatMap.1 hf
  exact isAddressed_of_speaksOn (outputs.speaksOn_followSession state) f hf

variable [FrameCarrier κ]

/-! ### Frames -/

theorem undisturbed_emit {p : Performative} (hp : p.windowFlow? = none) :
    Keeps (Undisturbed (κ := κ) i flows) (emit p) := by
  rintro ⟨s, r⟩ h
  rcases emit_cases p s r with ⟨halt, carrier, hemit⟩ | ⟨carrier, hemit⟩
  · rw [hemit]
    exact ⟨h.intake_eq, h.windowFlows_eq⟩
  · rw [hemit]
    refine ⟨h.intake_eq, (windowFlows_append _ _ p).trans ?_⟩
    rw [hp]
    exact (List.append_nil _).trans h.windowFlows_eq

theorem undisturbed_sendFlow {flow : Flow} (h : flow.handle ≠ none) :
    Keeps (Undisturbed (κ := κ) i flows) (sendFlow (some flow)) :=
  keeps_current_bind fun s _ hy => undisturbed_emit (p := .flow (s.toFlow flow)) (if_neg h) _ hy

theorem undisturbed_sendOutputs {outputs : List Link.Output} (h : IsAddressed outputs) :
    Keeps (Undisturbed (κ := κ) i flows) (sendOutputs outputs) := by
  induction outputs with
  | nil => exact keeps_pure ()
  | cons o outputs ih =>
    have ho : Keeps (Undisturbed (κ := κ) i flows) (sendOutput o) := by
      cases o with
      | flow v => exact undisturbed_sendFlow (h v List.mem_cons_self)
      | _ => exact undisturbed_emit rfl
    exact Keeps.bind ho fun _ => ih fun f hf => h f (List.mem_cons_of_mem o hf)

theorem undisturbed_commit {change : Session × List Link.Output}
    (h : Undisturbed i flows (s, r)) (hchange : change.1.intake = s.intake)
    (houtputs : IsAddressed change.2) :
    Leaves (Undisturbed i flows) (commit change (s, r)) :=
  undisturbed_sendOutputs houtputs _ (h.change hchange)

theorem undisturbed_transition (state : State) :
    Keeps (Undisturbed (κ := κ) i flows) (transition state) :=
  keeps_current_bind fun s _ h => undisturbed_commit h rfl (isAddressed_enter state s)

theorem undisturbed_sendBegin : Keeps (Undisturbed (κ := κ) i flows) sendBegin :=
  keeps_current_bind fun _ _ h => undisturbed_emit (p := .begin _) rfl _ h

theorem undisturbed_abort (error : ErrorInfo) (f : Fault) :
    Keeps (Undisturbed (κ := κ) i flows) (abort error f) :=
  Keeps.bind (undisturbed_emit rfl) fun _ => Keeps.bind (undisturbed_transition _) fun _ =>
    keeps_raise f

/-! ### Calls of the owner -/

theorem undisturbed_begin (wait : Patience) :
    Keeps (Undisturbed (κ := κ) i flows) (begin wait) := by
  have hopening : Keeps (Undisturbed (κ := κ) i flows)
      (sendBegin >>= fun _ => transition .beginSent) :=
    undisturbed_sendBegin.bind fun _ => undisturbed_transition _
  refine keeps_current_bind fun s r h => ?_
  dsimp only
  split_ifs
  · exact h
  · exact h
  · exact h
  · exact hopening (s, r) h

theorem undisturbed_finish (error : Option ErrorInfo) :
    Keeps (Undisturbed (κ := κ) i flows) (finish error) := by
  have hclosing (state : State) : Keeps (Undisturbed (κ := κ) i flows)
      (sendEnd error >>= fun _ => transition state) :=
    Keeps.bind (undisturbed_emit rfl) fun _ => undisturbed_transition state
  refine keeps_current_bind fun s r h => ?_
  split_ifs
  · exact hclosing _ (s, r) h
  · exact hclosing _ (s, r) h
  · exact h

theorem undisturbed_attach (name : String) :
    Keeps (Undisturbed (κ := κ) i flows) (attach name) := by
  refine keeps_current_bind fun s r h => leaves_ofExcept_bind h fun l _ => ?_
  split_ifs
  · exact undisturbed_commit h rfl (isAddressed_of_speaksOn l.speaksOn_attach)
  · exact h.change rfl

theorem undisturbed_detach (name : String) (close : Bool) (error : Option ErrorInfo) :
    Keeps (Undisturbed (κ := κ) i flows) (detach name close error) := by
  refine keeps_current_bind fun s r h => leaves_ofExcept_bind h fun l _ => ?_
  split_ifs
  · exact h.change (intake_remove name s)
  · exact undisturbed_commit h rfl (isAddressed_of_speaksOn (l.speaksOn_detach close error))

theorem undisturbed_sendTransfers (ts : List Transfer) :
    Keeps (Undisturbed (κ := κ) i flows) (sendTransfers ts) := by
  induction ts with
  | nil => exact keeps_pure ()
  | cons t ts ih =>
    exact Keeps.bind (undisturbed_emit rfl) fun _ =>
      Keeps.bind (undisturbed_update fun _ => rfl) fun _ => ih

theorem undisturbed_sendDelivery (t : Transfer) :
    Keeps (Undisturbed (κ := κ) i flows) (sendDelivery t) := by
  refine keeps_get_bind fun ⟨s, r⟩ h => ?_
  dsimp only
  split_ifs
  · exact h
  · exact h
  refine leaves_ofExcept_bind h fun ts _ => ?_
  have hsending : Keeps (Undisturbed (κ := κ) i flows)
      (sendTransfers (stamp s.nextOutgoingId ts) >>= fun _ =>
        pure (SendOutcome.sent s.nextOutgoingId)) :=
    (undisturbed_sendTransfers _).bind fun _ => keeps_pure _
  split_ifs
  · exact h
  · exact hsending (s, r) h

theorem undisturbed_send (now : Nat) (name : String) (payload : Bytes) (settled : Bool) :
    Keeps (Undisturbed (κ := κ) i flows) (send now name payload settled) := by
  refine keeps_current_bind fun s r h => ?_
  split_ifs
  · exact h
  refine leaves_ofExcept_bind h fun v _ => leaves_ofExcept_bind h fun drafted _ => ?_
  obtain ⟨t | t, v'⟩ := drafted
  · exact h
  refine leaves_update_bind (leaves_bind (undisturbed_sendDelivery t _ (h.change rfl))
    (fun outcome y _ hy => ?_) fun _ => id)
  cases outcome with
  | sent id => exact hy.change rfl
  | _ => exact hy

theorem undisturbed_grantCredit (name : String) (credit : UInt32) :
    Keeps (Undisturbed (κ := κ) i flows) (grantCredit name credit) :=
  keeps_current_bind fun _ _ h => leaves_ofExcept_bind h fun _ _ =>
    leaves_ofExcept_bind h fun _ hchange => undisturbed_commit h rfl
      (isAddressed_of_speaksOn (Link.Receiver.speaksOn_grant hchange))

theorem undisturbed_settle (name : String) (deliveryId : UInt32) (state : DeliveryState) :
    Keeps (Undisturbed (κ := κ) i flows) (settle name deliveryId state) :=
  keeps_current_bind fun _ _ h => leaves_ofExcept_bind h fun _ _ =>
    leaves_ofExcept_bind h fun _ hchange => undisturbed_commit h rfl
      (isAddressed_of_speaksOn (Link.Receiver.speaksOn_settle 0 hchange))

/-! ### Frames of the peer -/

theorem undisturbed_onBegin (remoteChannel : UInt16) (v : Begin) :
    Keeps (Undisturbed (κ := κ) i flows) (onBegin remoteChannel v) := by
  have hmeet : Keeps (Undisturbed (κ := κ) i flows)
      (update fun s => { s with remoteChannel := some remoteChannel }) :=
    undisturbed_update fun _ => rfl
  refine Keeps.bind (undisturbed_update fun _ => rfl) fun _ => keeps_current_bind fun s r h => ?_
  cases s.state with
  | beginSent => exact (hmeet.bind fun _ => undisturbed_transition _) (s, r) h
  | unmapped =>
    exact (hmeet.bind fun _ => (undisturbed_transition _).bind fun _ =>
      undisturbed_sendBegin.bind fun _ => undisturbed_transition _) (s, r) h
  | _ => exact h

theorem undisturbed_onEnd : Keeps (Undisturbed (κ := κ) i flows) onEnd := by
  have hrelease : Keeps (Undisturbed (κ := κ) i flows)
      (transition .unmapped >>= fun _ => update dropLinks) :=
    (undisturbed_transition _).bind fun _ => undisturbed_update fun _ => rfl
  refine keeps_current_bind fun s r h => ?_
  dsimp only
  split_ifs
  · exact ((undisturbed_transition _).bind fun _ => Keeps.bind (undisturbed_emit rfl) fun _ =>
      hrelease) (s, r) h
  · exact hrelease (s, r) h

theorem undisturbed_onAttach (attach : Attach) :
    Keeps (Undisturbed (κ := κ) i flows) (onAttach attach) := by
  rintro ⟨s, r⟩ h
  rcases onAttach_cases (κ := Recorder κ) attach s with
    ⟨holder, heq⟩ | ⟨-, ⟨l, -, heq⟩ | ⟨-, heq⟩⟩ <;> rw [heq]
  · exact undisturbed_abort _ _ (s, r) h
  · exact undisturbed_commit h rfl (isAddressed_of_speaksOn (l.speaksOn_onAttach attach))
  · refine leaves_ofExcept_bind h fun change hchange => ?_
    obtain ⟨l, handle, -, -, rfl⟩ := registers_attachNew hchange
    exact undisturbed_commit h rfl (isAddressed_of_speaksOn (l.speaksOn_onAttach attach))

theorem undisturbed_onFlow (v : Flow) : Keeps (Undisturbed (κ := κ) i flows) (onFlow v) := by
  refine Keeps.bind (undisturbed_update fun _ => rfl) fun _ => keeps_current_bind fun s r h => ?_
  cases v.handle with
  | none =>
    refine undisturbed_commit h (intake_spreadFlow v s) ?_
    unfold spreadFlow
    split_ifs
    · refine isAddressed_visit (fun l => ?_) _ _
      split_ifs
      · exact fun _ hf => absurd hf List.not_mem_nil
      · exact isAddressed_of_speaksOn (l.speaksOn_onFlow v)
    · exact fun _ hf => absurd hf List.not_mem_nil
  | some handle =>
    dsimp only
    cases s.inputHandles.get? handle with
    | none => exact undisturbed_abort _ _ (s, r) h
    | some name =>
      exact leaves_ofExcept_bind h fun l _ =>
        undisturbed_commit h rfl (isAddressed_of_speaksOn (l.speaksOn_onFlow v))

theorem undisturbed_onDisposition (d : Disposition) :
    Keeps (Undisturbed (κ := κ) i flows) (onDisposition d) :=
  keeps_current_bind fun _ _ h => undisturbed_commit h rfl
    (isAddressed_visit (fun l => isAddressed_of_speaksOn (l.speaksOn_onDisposition d)) _ _)

theorem undisturbed_onDetach (d : Detach) :
    Keeps (Undisturbed (κ := κ) i flows) (onDetach d) := by
  refine keeps_current_bind fun s r h => ?_
  cases s.inputHandles.get? d.handle with
  | none => exact undisturbed_abort _ _ (s, r) h
  | some name =>
    refine leaves_ofExcept_bind h fun l _ => ?_
    refine leaves_bind (undisturbed_commit h rfl (isAddressed_of_speaksOn (l.speaksOn_onDetach d)))
      (fun _ y _ hy => ?_) fun _ => id
    split_ifs
    · exact hy.change (intake_remove name _)
    · exact hy

end

/-! ## Events -/

namespace Event

variable {κ : Type}

/-- Whether an event is a transfer of the peer. -/
def isTransfer : Event κ → Bool
  | .dispatch _ (.transfer _) => true
  | _ => false

/-- Whether an event is a call to send a flow that concerns the session. -/
def asksFlow : Event κ → Bool
  | .sendFlow flow => (flow.bind (·.handle)).isNone
  | _ => false

/-- The next transfer id that the peer tells in an event. -/
def told? : Event κ → Option UInt32
  | .dispatch _ (.begin v) => some v.nextOutgoingId
  | .dispatch _ (.flow v) => some v.nextOutgoingId
  | _ => none

variable {ev : Event κ}

theorem exists_of_isTransfer (h : ev.isTransfer = true) :
    ∃ channel t, ev = .dispatch channel (.transfer t) := by
  cases ev with
  | dispatch channel p =>
    cases p with
    | transfer t => exact ⟨channel, t, rfl⟩
    | _ => cases h
  | _ => cases h

theorem isTransfer_of_told? {id : UInt32} (h : ev.told? = some id) : ev.isTransfer = false := by
  cases ev with
  | dispatch channel p =>
    cases p with
    | transfer t => cases h
    | _ => rfl
  | _ => rfl

theorem exists_of_asksFlow (h : ev.asksFlow = true) : ∃ flow, ev = .sendFlow flow := by
  cases ev with
  | sendFlow flow => exact ⟨flow, rfl⟩
  | _ => cases h

end Event

section

variable {κ : Type} [FrameCarrier κ] {x y : Session × Recorder κ} {ev : Event κ}

/-- A call to send a flow changes nothing, and its flow goes out or not. -/
theorem after_sendFlow (flow : Option Flow) (x : Session × Recorder κ) :
    (after x (.sendFlow flow)).1 = x.1 ∧ ∃ sent,
      windowFlows (after x (.sendFlow flow)).2.frames = windowFlows x.2.frames ++ sent := by
  obtain ⟨s, r⟩ := x
  have hemit : after (s, r) (.sendFlow flow) =
      stateAfter (emit (.flow (s.toFlow (flow.getD {}))) (s, r)) := rfl
  rw [hemit]
  rcases emit_cases (.flow (s.toFlow (flow.getD {}))) s r with
    ⟨halt, carrier, hcase⟩ | ⟨carrier, hcase⟩ <;> rw [hcase]
  · exact ⟨rfl, [], (List.append_nil _).symm⟩
  · exact ⟨rfl, _, windowFlows_append _ _ _⟩

/-- Apart from the transfers of the peer and from calls to send a flow, an event leaves the window
as it is, and no flow of the session's own goes out. -/
theorem undisturbed_after (hev : ev.isTransfer = false) (hask : ev.asksFlow = false)
    (x : Session × Recorder κ) :
    Undisturbed x.1.intake (windowFlows x.2.frames) (after x ev) := by
  obtain ⟨s, r⟩ := x
  have h : Undisturbed s.intake (windowFlows r.frames) (s, r) := ⟨rfl, rfl⟩
  have hkeeps {act : Acting (Recorder κ) Unit}
      (hact : Keeps (Undisturbed s.intake (windowFlows r.frames)) act) :
      Undisturbed s.intake (windowFlows r.frames) (stateAfter (act (s, r))) :=
    leaves_iff.1 (hact (s, r) h)
  have hadopt {α : Type} {call : Session → Except Fault (α × Session)}
      (hcall : ((call s).toOption.elim s Prod.snd).intake = s.intake) :
      Undisturbed s.intake (windowFlows r.frames) (stateAfter (adopt call (s, r))) := by
    rw [adopt_eq]
    exact h.change hcall
  cases ev with
  | begin wait => exact hkeeps (undisturbed_begin wait)
  | finish error => exact hkeeps (undisturbed_finish error)
  | addSender unique target settings =>
    refine hadopt ?_
    cases hresult : s.addSender unique target settings with
    | error f => rfl
    | ok result =>
      obtain ⟨l, handle, -, -, hregister⟩ := registers_addSender hresult
      exact (congrArg intake hregister).trans (intake_register l s)
  | addReceiver unique source settings =>
    refine hadopt ?_
    cases hresult : s.addReceiver unique source settings with
    | error f => rfl
    | ok result =>
      obtain ⟨l, handle, -, -, hregister⟩ := registers_addReceiver hresult
      exact (congrArg intake hregister).trans (intake_register l s)
  | attach name => exact hkeeps (undisturbed_attach name)
  | detach name close error => exact hkeeps (undisturbed_detach name close error)
  | send now name payload settled =>
    exact hkeeps ((undisturbed_send now name payload settled).bind fun _ => keeps_pure ())
  | sendDelivery transfer =>
    exact hkeeps ((undisturbed_sendDelivery transfer).bind fun _ => keeps_pure ())
  | sendFlow flow =>
    cases flow with
    | none => cases hask
    | some v =>
      have hhandle : v.handle.isNone = false := hask
      exact hkeeps (undisturbed_sendFlow fun hnone => by rw [hnone] at hhandle; cases hhandle)
  | grantCredit name credit => exact hkeeps (undisturbed_grantCredit name credit)
  | settle name deliveryId state => exact hkeeps (undisturbed_settle name deliveryId state)
  | receive name =>
    refine hadopt ?_
    unfold Session.receive
    cases s.receiver name <;> rfl
  | collectOutcome name deliveryId =>
    refine hadopt ?_
    unfold Session.collectOutcome
    cases s.sender name <;> rfl
  | evaluate now => exact h.change rfl
  | followConnection connection => exact h.change (intake_followConnection connection s)
  | changeCarrier change => exact ⟨rfl, rfl⟩
  | dispatch remoteChannel p =>
    cases p with
    | begin v => exact hkeeps (undisturbed_onBegin remoteChannel v)
    | flow v => exact hkeeps (undisturbed_onFlow v)
    | transfer v => cases hev
    | endFrame v => exact hkeeps undisturbed_onEnd
    | attach v => exact hkeeps (undisturbed_onAttach v)
    | disposition v => exact hkeeps (undisturbed_onDisposition v)
    | detach v => exact hkeeps (undisturbed_onDetach v)
    | openFrame v | close v => exact h

/-! ## Transfers -/

/-- A window that is used up is opened, and a flow tells the peer. -/
theorem replenish_of_ok {u : Unit} (h : replenish x = .ok u y) :
    y.1.targetIncomingWindow = x.1.targetIncomingWindow ∧
      y.1.incomingWindow =
        (if x.1.incomingWindow = 0 then x.1.targetIncomingWindow else x.1.incomingWindow) ∧
      windowFlows y.2.frames = windowFlows x.2.frames ++
        if x.1.incomingWindow = 0 then [y.1.toFlow {}] else [] := by
  obtain ⟨s, r⟩ := x
  unfold replenish at h
  rw [current_bind] at h
  by_cases hused : s.incomingWindow = 0
  · rw [if_pos hused, update_bind] at h
    rw [if_pos hused, if_pos hused]
    set s' := { s with incomingWindow := s.targetIncomingWindow }
    have hemit : emit (.flow (s'.toFlow {})) (s', r) = .ok u y := h
    rcases emit_cases (.flow (s'.toFlow {})) s' r with
      ⟨halt, carrier, hcase⟩ | ⟨carrier, hcase⟩ <;> rw [hcase] at hemit <;> cases hemit
    exact ⟨rfl, rfl, windowFlows_append _ _ _⟩
  · rw [if_neg hused] at h
    rw [if_neg hused, if_neg hused]
    cases h
    exact ⟨rfl, rfl, (List.append_nil _).symm⟩

/-- A transfer that is handled is counted.  If it uses up the window, that is opened again, and a
flow tells the peer. -/
theorem onTransfer_of_ok {t : Transfer} {u : Unit} (h : onTransfer t x = .ok u y) :
    y.1.targetIncomingWindow = x.1.targetIncomingWindow ∧
      y.1.incomingWindow =
        (if x.1.countIncoming.incomingWindow = 0 then x.1.targetIncomingWindow
          else x.1.countIncoming.incomingWindow) ∧
      windowFlows y.2.frames = windowFlows x.2.frames ++
        if x.1.countIncoming.incomingWindow = 0 then [y.1.toFlow {}] else [] := by
  obtain ⟨s, r⟩ := x
  have hcounted : Undisturbed s.countIncoming.intake (windowFlows r.frames) (s.countIncoming, r) :=
    ⟨rfl, rfl⟩
  unfold onTransfer at h
  rw [update_bind, current_bind] at h
  cases hname : s.countIncoming.inputHandles.get? t.handle with
  | none =>
    -- The session is ended with an error.
    rw [hname] at h
    obtain ⟨_, _, _, h⟩ := bind_eq_ok h
    obtain ⟨_, _, _, h⟩ := bind_eq_ok h
    cases h
  | some name =>
    rw [hname] at h
    obtain ⟨l, -, h⟩ := ofExcept_bind_eq_ok h
    obtain ⟨change, hchange, h⟩ := ofExcept_bind_eq_ok h
    obtain ⟨_, x', hcommit, h⟩ := bind_eq_ok h
    have hx' : Leaves (Undisturbed s.countIncoming.intake (windowFlows r.frames))
        (commit (s.countIncoming.withLink name change.1, change.2) (s.countIncoming, r)) :=
      undisturbed_commit hcounted rfl (isAddressed_of_speaksOn (l.speaksOn_onTransfer hchange))
    rw [hcommit] at hx'
    have hwindow : x'.1.incomingWindow = _ := congrArg Prod.fst hx'.intake_eq
    have htarget : x'.1.targetIncomingWindow = _ := congrArg Prod.snd hx'.intake_eq
    have hreplenish := replenish_of_ok h
    rw [hwindow, htarget, hx'.windowFlows_eq] at hreplenish
    exact hreplenish

/-! ## Windows -/

/-- The transfers of the peer among events. -/
def transfers (evs : List (Event κ)) : Nat := evs.countP Event.isTransfer

/-- Whether a session comes to the end of what it does in an event. -/
def Event.completes (ev : Event κ) (x : Session × Recorder κ) : Bool :=
  match ev.perform x with
  | .ok _ _ => true
  | .error _ _ => false

theorem Event.exists_of_completes (h : ev.completes x = true) : ∃ y, ev.perform x = .ok () y := by
  unfold Event.completes at h
  cases hx : ev.perform x with
  | ok u y => exact ⟨y, rfl⟩
  | error halt y =>
    rw [hx] at h
    cases h

/-- Whether all transfers of the peer among events are handled. -/
def Handled : List (Event κ) → Session × Recorder κ → Prop
  | [], _ => True
  | ev :: evs, x => (ev.isTransfer = true → ev.completes x = true) ∧ Handled evs (after x ev)

instance decidableHandled :
    (evs : List (Event κ)) → (x : Session × Recorder κ) → Decidable (Handled evs x)
  | [], _ => .isTrue trivial
  | ev :: evs, x => @instDecidableAnd _ _ _ (decidableHandled evs (after x ev))

/-- The flows of its own that a session sends in an event. -/
def flowsIn (ev : Event κ) (x : Session × Recorder κ) : List Flow :=
  (windowFlows (after x ev).2.frames).drop (windowFlows x.2.frames).length

/-- How many of these flows go out because the owner of the session asks for them. -/
def askedFlows : List (Event κ) → Session × Recorder κ → Nat
  | [], _ => 0
  | ev :: evs, x =>
    (if ev.asksFlow then (flowsIn ev x).length else 0) + askedFlows evs (after x ev)

/-- Whether a session has counted some transfers against windows of a given size. -/
structure Counted (window : UInt32) (n : Nat) (s : Session) : Prop where
  target_eq : s.targetIncomingWindow = window
  window_eq : s.incomingWindow.toNat = window.toNat - n % window.toNat

/-- One more transfer uses up a window, or it does not. -/
theorem window_cases {w : Nat} (hw : 0 < w) (n : Nat) :
    (w ∣ n + 1 ∧ n % w = w - 1 ∧ (n + 1) % w = 0 ∧ (n + 1) / w = n / w + 1) ∨
      ¬ w ∣ n + 1 ∧ (n + 1) % w = n % w + 1 ∧ (n + 1) / w = n / w := by
  have hn := Nat.mod_add_div n w
  have hlt := Nat.mod_lt n hw
  by_cases hlast : n % w + 1 = w
  · have hsplit : 0 + w * (n / w + 1) = n + 1 := by
      rw [Nat.mul_succ]
      omega
    obtain ⟨hdiv, hmod⟩ := (Nat.div_mod_unique hw).2 ⟨hsplit, hw⟩
    exact Or.inl ⟨Nat.dvd_of_mod_eq_zero hmod, by omega, hmod, hdiv⟩
  · have hsplit : n % w + 1 + w * (n / w) = n + 1 := by omega
    obtain ⟨hdiv, hmod⟩ := (Nat.div_mod_unique hw).2 ⟨hsplit, by omega⟩
    exact Or.inr ⟨fun hdvd => by have := Nat.mod_eq_zero_of_dvd hdvd; omega, hmod, hdiv⟩

variable {window : UInt32} {n : Nat}

/-- What a transfer that is handled does to the window. -/
theorem Counted.transfer (hwindow : 0 < window) (h : Counted window n x.1) {t : Transfer}
    {u : Unit} (hy : onTransfer t x = .ok u y) :
    Counted window (n + 1) y.1 ∧ windowFlows y.2.frames = windowFlows x.2.frames ++
      if window.toNat ∣ n + 1 then [{ y.1.toFlow {} with incomingWindow := window }] else [] := by
  obtain ⟨htarget, hopened, hflows⟩ := onTransfer_of_ok hy
  have hpos : 0 < window.toNat := UInt32.lt_iff_toNat_lt.1 hwindow
  have hleft : x.1.countIncoming.incomingWindow.toNat = x.1.incomingWindow.toNat - 1 :=
    Link.toNat_countDown _
  have hcount := h.window_eq
  rw [h.target_eq] at htarget hopened
  rcases window_cases hpos n with ⟨hdvd, hmod, hnext, -⟩ | ⟨hdvd, hnext, -⟩
  · have hzero : (0 : UInt32).toNat = 0 := rfl
    have hused : x.1.countIncoming.incomingWindow = 0 := UInt32.toNat_inj.1 (by omega)
    rw [if_pos hused] at hopened hflows
    rw [if_pos hdvd, ← hopened]
    exact ⟨⟨htarget.trans hopened.symm, by rw [hopened, hnext]; rfl⟩, hflows⟩
  · have hlt := Nat.mod_lt (n + 1) hpos
    have hleft' :
        x.1.countIncoming.incomingWindow.toNat = window.toNat - (n + 1) % window.toNat := by
      omega
    have hroom : x.1.countIncoming.incomingWindow ≠ 0 := by
      intro hzero
      rw [hzero] at hleft'
      change 0 = _ at hleft'
      omega
    rw [if_neg hroom] at hopened hflows
    rw [if_neg hdvd]
    exact ⟨⟨htarget, by rw [hopened, hleft']⟩, hflows⟩

/-- An event goes on counting.  Unless it asks for a flow, the session sends one of its own if the
event is a transfer that uses up a window, and none otherwise. -/
theorem Counted.after (hwindow : 0 < window) (h : Counted window n x.1)
    (hok : ev.isTransfer = true → ev.completes x = true) :
    Counted window (n + transfers [ev]) (after x ev).1 ∧
      windowFlows (after x ev).2.frames = windowFlows x.2.frames ++ flowsIn ev x ∧
      (ev.asksFlow = false → flowsIn ev x =
        if ev.isTransfer = true ∧ window.toNat ∣ n + transfers [ev] then
          [{ (Session.after x ev).1.toFlow {} with incomingWindow := window }] else []) := by
  have hsent {sent : List Flow}
      (hx : windowFlows (Session.after x ev).2.frames = windowFlows x.2.frames ++ sent) :
      flowsIn ev x = sent := by
    unfold flowsIn
    rw [hx, List.drop_left]
  cases hev : ev.isTransfer with
  | true =>
    have hone : transfers [ev] = 1 := by simp [transfers, hev]
    obtain ⟨y, hy⟩ := Event.exists_of_completes (hok hev)
    have hafter : Session.after x ev = y := congrArg stateAfter hy
    obtain ⟨channel, t, rfl⟩ := Event.exists_of_isTransfer hev
    obtain ⟨hcounted, hflows⟩ := h.transfer hwindow hy
    rw [← hafter] at hcounted hflows
    rw [hone, hsent hflows]
    refine ⟨hcounted, hflows, fun _ => ?_⟩
    simp only [true_and]
  | false =>
    have hnone : transfers [ev] = 0 := by simp [transfers, hev]
    rw [hnone, Nat.add_zero]
    cases hask : ev.asksFlow with
    | true =>
      obtain ⟨flow, rfl⟩ := Event.exists_of_asksFlow hask
      obtain ⟨hsame, sent, hflows⟩ := after_sendFlow flow x
      rw [hsent hflows, hsame]
      exact ⟨h, hflows, fun hfalse => by cases hfalse⟩
    | false =>
      have hx := undisturbed_after hev hask x
      have hflows := hx.windowFlows_eq.trans (List.append_nil _).symm
      have hsame : (Session.after x ev).1.incomingWindow = _ := congrArg Prod.fst hx.intake_eq
      have htarget : (Session.after x ev).1.targetIncomingWindow = _ :=
        congrArg Prod.snd hx.intake_eq
      rw [hsent hflows]
      refine ⟨⟨htarget.trans h.target_eq, ?_⟩, hflows, fun _ => ?_⟩
      · rw [hsame]
        exact h.window_eq
      · rw [if_neg fun hboth => Bool.false_ne_true hboth.1]

omit [FrameCarrier κ] in
/-- Before its moves a session counts a transfer, or takes over the next id that the peer tells. -/
theorem Event.nextIncomingId_prepare_eq (ev : Event κ) (s : Session) :
    (ev.prepare s).nextIncomingId =
      if ev.isTransfer then some (s.nextIncomingId.getD 0 + 1)
      else ev.told?.or s.nextIncomingId := by
  have hadds {name : String} (hname : ev.addedName? = some name) :
      (ev.prepare s).nextIncomingId = s.nextIncomingId := by
    rcases ev.adds_prepare hname s with h | ⟨l, handle, -, -, h⟩ <;> rw [h]
    rfl
  cases ev with
  | addSender unique target settings => exact hadds rfl
  | addReceiver unique source settings => exact hadds rfl
  | dispatch remoteChannel p => cases p <;> rfl
  | _ => rfl

theorem nextIncomingId_after_eq (ev : Event κ) (x : Session × Recorder κ) :
    (after x ev).1.nextIncomingId =
      if ev.isTransfer then some (x.1.nextIncomingId.getD 0 + 1)
      else ev.told?.or x.1.nextIncomingId := by
  obtain ⟨ps, hmoves, -⟩ := ran_perform ev x.1 x.2
  exact hmoves.nextIncomingId_eq.trans (ev.nextIncomingId_prepare_eq x.1)

/-! ## Runs -/

omit [FrameCarrier κ] in
theorem transfers_append (evs more : List (Event κ)) :
    transfers (evs ++ more) = transfers evs + transfers more := List.countP_append

theorem handled_append {evs more : List (Event κ)} :
    Handled (evs ++ more) x ↔ Handled evs x ∧ Handled more (run evs x) := by
  induction evs generalizing x with
  | nil => exact (and_iff_right trivial).symm
  | cons ev evs ih => exact (and_congr_right fun _ => ih).trans and_assoc.symm

/-- The flows of its own are one for each window that is used up, and those that are asked for. -/
theorem Counted.length_flowsIn (hwindow : 0 < window) (h : Counted window n x.1)
    (hok : ev.isTransfer = true → ev.completes x = true) :
    (flowsIn ev x).length + n / window.toNat = (n + transfers [ev]) / window.toNat +
      if ev.asksFlow then (flowsIn ev x).length else 0 := by
  have hpos : 0 < window.toNat := UInt32.lt_iff_toNat_lt.1 hwindow
  cases hask : ev.asksFlow with
  | true =>
    obtain ⟨flow, rfl⟩ := Event.exists_of_asksFlow hask
    rw [if_pos rfl, show transfers [(Event.sendFlow flow : Event κ)] = 0 from rfl, Nat.add_zero,
      Nat.add_comm]
  | false =>
    rw [(h.after hwindow hok).2.2 hask, if_neg Bool.false_ne_true, Nat.add_zero]
    cases hev : ev.isTransfer with
    | true =>
      rw [show transfers [ev] = 1 by simp [transfers, hev]]
      rcases window_cases hpos n with ⟨hdvd, -, -, hdiv⟩ | ⟨hdvd, -, hdiv⟩
      · rw [if_pos ⟨rfl, hdvd⟩, hdiv, Nat.add_comm]
        rfl
      · rw [if_neg fun hboth => hdvd hboth.2, hdiv, Nat.add_comm]
        rfl
    | false =>
      rw [show transfers [ev] = 0 by simp [transfers, hev],
        if_neg fun hboth => Bool.false_ne_true hboth.1, Nat.add_comm]
      rfl

theorem Counted.run (hwindow : 0 < window) (h : Counted window n x.1) {evs : List (Event κ)}
    (hevs : Handled evs x) :
    Counted window (n + transfers evs) (run evs x).1 ∧
      (windowFlows (Session.run evs x).2.frames).length + n / window.toNat =
        (windowFlows x.2.frames).length + (n + transfers evs) / window.toNat +
          askedFlows evs x := by
  induction evs generalizing x n with
  | nil => exact ⟨h, by simp [transfers, askedFlows, Session.run]⟩
  | cons ev evs ih =>
    obtain ⟨hstep, hflows, -⟩ := h.after hwindow hevs.1
    obtain ⟨hrun, hlength⟩ := ih hstep hevs.2
    have hcount : transfers (ev :: evs) = transfers [ev] + transfers evs :=
      transfers_append [ev] evs
    rw [hcount, ← Nat.add_assoc]
    refine ⟨hrun, ?_⟩
    have hone := h.length_flowsIn hwindow hevs.1
    rw [hflows, List.length_append] at hlength
    change (windowFlows (Session.run evs (Session.after x ev)).2.frames).length + _ =
      _ + ((if ev.asksFlow then (flowsIn ev x).length else 0) + _)
    omega

/-- As long as the peer does not tell another id, transfers are counted from the last one on. -/
theorem nextIncomingId_run {id : UInt32} (hid : x.1.nextIncomingId = some id)
    {evs : List (Event κ)} (htold : ∀ ev ∈ evs, ev.told? = none) :
    (run evs x).1.nextIncomingId = some (id + UInt32.ofNat (transfers evs)) := by
  induction evs generalizing x id with
  | nil => exact hid.trans (congrArg some (UInt32.add_zero id).symm)
  | cons ev evs ih =>
    obtain ⟨hnone, hrest⟩ := List.forall_mem_cons.1 htold
    have hafter := nextIncomingId_after_eq ev x
    rw [hnone, hid] at hafter
    cases hev : ev.isTransfer with
    | true =>
      rw [hev] at hafter
      have hcount : transfers (ev :: evs) = 1 + transfers evs := by
        rw [Nat.add_comm]
        exact List.countP_cons_of_pos hev
      rw [hcount, UInt32.ofNat_add, ← UInt32.add_assoc]
      exact ih hafter hrest
    | false =>
      rw [hev] at hafter
      have hcount : transfers (ev :: evs) = transfers evs :=
        List.countP_cons_of_neg (by rw [hev]; exact Bool.false_ne_true)
      rw [hcount]
      exact ih hafter hrest

/-- In every run of a session whose incoming window is not empty, and in which all transfers of the
peer are handled, `n` transfers leave of the window what `n` leaves of a multiple of its size.  The
window has been opened once for each full one, by a flow of the session's own in the event of the
transfer that has used it up; other such flows only go out when the owner asks for them.  The next
id is the one that the peer has told last, and the transfers since. -/
theorem replenished_of_run (o : Origin κ) (evs : List (Event κ))
    (hwindow : 0 < o.settings.incomingWindow) (hevs : Handled evs o.start) :
    (run evs o.start).1.incomingWindow.toNat =
        o.settings.incomingWindow.toNat - transfers evs % o.settings.incomingWindow.toNat ∧
      (windowFlows (run evs o.start).2.frames).length =
        transfers evs / o.settings.incomingWindow.toNat + askedFlows evs o.start ∧
      (∀ before ev later, evs = before ++ ev :: later → ev.asksFlow = false →
        flowsIn ev (run before o.start) =
          if ev.isTransfer = true ∧
              o.settings.incomingWindow.toNat ∣ transfers (before ++ [ev]) then
            [{ (run (before ++ [ev]) o.start).1.toFlow {} with
              incomingWindow := o.settings.incomingWindow }]
          else []) ∧
      ∀ before ev later id, evs = before ++ ev :: later → ev.told? = some id →
        (∀ ev ∈ later, ev.told? = none) →
        (run evs o.start).1.nextIncomingId = some (id + UInt32.ofNat (transfers later)) := by
  have hstart : Counted o.settings.incomingWindow 0 o.start.1 := ⟨rfl, by rw [Nat.zero_mod]; rfl⟩
  obtain ⟨hcounted, hlength⟩ := hstart.run hwindow hevs
  rw [Nat.zero_add, Nat.zero_div, Nat.add_zero] at hlength
  rw [Nat.zero_add] at hcounted
  have hnone : (windowFlows o.start.2.frames).length = 0 := rfl
  rw [hnone, Nat.zero_add] at hlength
  refine ⟨hcounted.window_eq, hlength, fun before ev later heq hask => ?_,
    fun before ev later id heq hid htold => ?_⟩
  · rw [heq, handled_append] at hevs
    have hbefore := (hstart.run hwindow hevs.1).1
    have hown := (hbefore.after hwindow hevs.2.1).2.2 hask
    rw [Nat.zero_add, ← transfers_append] at hown
    rw [hown, run_append]
    rfl
  · rw [heq, run_append]
    refine nextIncomingId_run ?_ htold
    have hafter := nextIncomingId_after_eq ev (run before o.start)
    rw [Event.isTransfer_of_told? hid, hid] at hafter
    exact hafter

/-- A session that opens its incoming window by two transfers at a time. -/
def narrowOrigin : Origin Outbox := { plainOrigin with settings := { incomingWindow := 2 } }

/-- A peer begins a session at its last transfer id, attaches a sending link, and sends three
transfers, of which the first two are one delivery.  Meanwhile the owner asks for a flow. -/
def threeTransfers : List (Event Outbox) :=
  [.dispatch 5 (.begin { peerBegin with nextOutgoingId := 0xFFFFFFFF }),
    .dispatch 5 (.attach { name := "in", handle := 4, role := .sender }),
    .dispatch 5 (.transfer { handle := 4, deliveryId := some 0, more := true }),
    .sendFlow none,
    .dispatch 5 (.transfer { handle := 4 }),
    .dispatch 5 (.transfer { handle := 4, deliveryId := some 1 })]

theorem replenished_of_threeTransfers :
    let x := run threeTransfers narrowOrigin.start
    0 < narrowOrigin.settings.incomingWindow ∧ Handled threeTransfers narrowOrigin.start ∧
      x.1.incomingWindow.toNat = 2 - 3 % 2 ∧ (windowFlows x.2.frames).length = 3 / 2 + 1 ∧
      (∃ flow, flowsIn (.dispatch 5 (.transfer { handle := 4 }))
          (run (threeTransfers.take 4) narrowOrigin.start) = [flow] ∧
        flow.incomingWindow = 2) ∧
      x.1.nextIncomingId = some 2 := by
  have hhandled : Handled threeTransfers narrowOrigin.start := by decide +kernel
  obtain ⟨hwindow, hlength, hflows, hid⟩ :=
    replenished_of_run narrowOrigin threeTransfers (by decide) hhandled
  have hasked : askedFlows threeTransfers narrowOrigin.start = 1 := by decide +kernel
  have htold : ∀ ev ∈ threeTransfers.tail, ev.told? = none := by decide
  rw [hasked] at hlength
  have hopening := hflows (threeTransfers.take 4) (.dispatch 5 (.transfer { handle := 4 }))
    (threeTransfers.drop 5) rfl rfl
  rw [if_pos (by decide)] at hopening
  exact ⟨by decide, hhandled, hwindow, hlength, ⟨_, hopening, rfl⟩,
    hid [] _ threeTransfers.tail 0xFFFFFFFF rfl rfl htold⟩

/-- A flow that the owner asks for goes out without any transfer. -/
theorem windowFlows_of_askedFlow :
    let evs : List (Event Outbox) := [.sendFlow none]
    0 < plainOrigin.settings.incomingWindow ∧ Handled evs plainOrigin.start ∧
      transfers evs = 0 ∧ (windowFlows (run evs plainOrigin.start).2.frames).length = 1 := by
  decide +kernel

end

end Session

end Amqp
