import Amqp.Proofs.Action
import Amqp.Proofs.Session.Sending
import Mathlib.Tactic.Choose
import Mathlib.Tactic.SplitIfs

/-!
# Scripts of session actions

A carrier tells a session nothing but whether it has accepted a frame.  So what a session does in an
action is settled beforehand: a `Script` lists the frames that it is going to send, each with the
session as it is then, and the result that it comes to if all of them are accepted.  `Scripted` says
that an action follows a script on every carrier with a given greatest frame, and that all its
frames are frames of a session, no transfer among them greater than that.  A script is steady if the
session keeps its state up to the first frame; the calls of a session's owner have steady scripts.
-/

namespace Amqp

/-- Whether a performative belongs to a session, and not to the connection itself. -/
def Performative.isOfSession : Performative → Bool
  | .openFrame _ | .close _ => false
  | _ => true

/-- Whether a frame belongs to a session and is no greater than a size if it is a transfer. -/
structure Performative.Suits (size : UInt32) (p : Performative) : Prop where
  isOfSession : p.isOfSession = true
  size_le : p.takesPayload = true → Frame.size p ≤ size.toNat

theorem Performative.suits_of_not_takesPayload {p : Performative} (hp : p.isOfSession = true)
    (hpayload : p.takesPayload = false) (size : UInt32) : p.Suits size :=
  ⟨hp, fun h => absurd (hpayload.symm.trans h) Bool.false_ne_true⟩

/-- A carrier whose greatest frame stays the same when it carries frames. -/
class SizedCarrier (κ : Type) [FrameCarrier κ] : Prop where
  maxFrameSize_carry (channel : UInt16) (p : Performative) (c : κ) :
    Action.Leaves (fun c' => FrameCarrier.maxFrameSize c' = FrameCarrier.maxFrameSize c)
      (FrameCarrier.carry channel p c)

namespace Session

theorem leaves_iff {σ α : Type} {I : σ → Prop} {result : EStateM.Result Halt σ α} :
    Action.Leaves I result ↔ I (stateAfter result) := by
  cases result <;> rfl

/-! ## Seats -/

/-- What the rest of a connection knows a session by: its channel, the channel of the peer that it
has met, and its state. -/
structure Seat where
  channel : UInt16
  remoteChannel : Option UInt16
  state : State

/-- The seat of a session. -/
def seat (s : Session) : Seat := ⟨s.channel, s.remoteChannel, s.state⟩

theorem seat_remove (name : String) (s : Session) : (s.remove name).seat = s.seat := by
  unfold remove
  split <;> rfl

/-! ## Scripts -/

/-- What a session is going to do: it sends frames, each as the session then is, and comes to a
result. -/
inductive Script (α : Type) where
  | done (result : Except Halt α) (s : Session)
  | say (s : Session) (p : Performative) (rest : Script α)

namespace Script

variable {α β κ : Type}

/-- The session at the first frame, or at the end of a script without frames. -/
def first : Script α → Session
  | done _ s => s
  | say s _ _ => s

/-- Whether all frames belong to a session, and the transfers are no greater than a size. -/
def Suits (size : UInt32) : Script α → Prop
  | done _ _ => True
  | say _ p rest => p.Suits size ∧ rest.Suits size

/-- One script after another, which depends on the result of the first one. -/
def bind (t : Script α) (f : α → Session → Script β) : Script β :=
  match t with
  | done (.ok a) s => f a s
  | done (.error halt) s => done (.error halt) s
  | say s p rest => say s p (rest.bind f)

theorem Suits.bind {size : UInt32} {t : Script α} {f : α → Session → Script β}
    (ht : t.Suits size) (hf : ∀ a s, (f a s).Suits size) : (t.bind f).Suits size := by
  induction t with
  | done result s =>
    cases result with
    | error halt => trivial
    | ok a => exact hf a s
  | say s p rest ih => exact ⟨ht.1, ih ht.2⟩

theorem state_first_bind {t : Script α} {f : α → Session → Script β} {state : State}
    (ht : t.first.state = state) (hf : ∀ a s, (f a s).first.state = s.state) :
    (t.bind f).first.state = state := by
  cases t with
  | done result s =>
    cases result with
    | error halt => exact ht
    | ok a => exact (hf a s).trans ht
  | say s p rest => exact ht

variable [FrameCarrier κ]

/-- What a script comes to on a carrier. -/
def execute : Script α → κ → EStateM.Result Halt (Session × κ) α
  | done (.ok a) s, c => .ok a (s, c)
  | done (.error halt) s, c => .error halt (s, c)
  | say s p rest, c =>
    match FrameCarrier.carry s.channel p c with
    | .ok _ c => rest.execute c
    | .error halt c => .error halt (s, c)

theorem execute_bind [SizedCarrier κ] {m : UInt32} {f : α → Acting κ β}
    {g : α → Session → Script β} (t : Script α)
    (hf : ∀ a s c, FrameCarrier.maxFrameSize c = m → f a (s, c) = (g a s).execute c) {c : κ}
    (hc : FrameCarrier.maxFrameSize c = m) (y : Session × κ) :
    ((fun _ => t.execute c : Acting κ α) >>= f) y = (t.bind g).execute c := by
  induction t generalizing c with
  | done result s =>
    cases result with
    | error halt => exact Action.bind_of_error rfl
    | ok a => exact (Action.bind_of_ok rfl).trans (hf a s c hc)
  | say s p rest ih =>
    have hsize := SizedCarrier.maxFrameSize_carry s.channel p c
    unfold bind execute
    cases hcarry : FrameCarrier.carry s.channel p c with
    | error halt c' => exact Action.bind_of_error rfl
    | ok _ c' =>
      rw [hcarry] at hsize
      exact ih (hsize.trans hc)

/-- What frames of a session leave as it is in a carrier, a script leaves as it is. -/
theorem leaves_execute {J : κ → Prop} {size : UInt32}
    (hJ : ∀ channel p, p.Suits size → Action.Keeps J (FrameCarrier.carry channel p))
    {t : Script α} (ht : t.Suits size) {c : κ} (hc : J c) :
    Action.Leaves (fun y => J y.2) (t.execute c) := by
  induction t generalizing c with
  | done result s => cases result <;> exact hc
  | say s p rest ih =>
    have hkept := hJ s.channel p ht.1 c hc
    unfold execute
    cases hcarry : FrameCarrier.carry s.channel p c with
    | error halt c' =>
      rw [hcarry] at hkept
      exact hkept
    | ok _ c' =>
      rw [hcarry] at hkept
      exact ih ht.2 hkept

end Script

/-! ## Scripted actions -/

section

variable {κ α β : Type} [FrameCarrier κ] {m : UInt32} {steady : Bool} {s : Session}

/-- Whether an action follows a script from a session, on carriers with a given greatest frame.  A
steady one keeps the session's state up to the first frame. -/
def Scripted (m : UInt32) (steady : Bool) (x : Acting κ α) (s : Session) : Prop :=
  ∃ t : Script α, (steady = true → t.first.state = s.state) ∧ t.Suits m ∧
    ∀ c, FrameCarrier.maxFrameSize c = m → x (s, c) = t.execute c

theorem scripted_pure (a : α) : Scripted (κ := κ) m steady (pure a) s :=
  ⟨.done (.ok a) s, fun _ => rfl, trivial, fun _ _ => rfl⟩

theorem scripted_raise (f : Fault) : Scripted (κ := κ) (α := α) m steady (Action.raise f) s :=
  ⟨.done (.error (.fault f)) s, fun _ => rfl, trivial, fun _ _ => rfl⟩

theorem Scripted.bind [SizedCarrier κ] {x : Acting κ α} {f : α → Acting κ β}
    (hx : Scripted m steady x s) (hf : ∀ a s, Scripted m steady (f a) s) :
    Scripted m steady (x >>= f) s := by
  obtain ⟨t, hfirst, ht, hexecute⟩ := hx
  choose g hg using hf
  refine ⟨t.bind g, fun h => Script.state_first_bind (hfirst h) fun a s => (hg a s).1 h,
    ht.bind fun a s => (hg a s).2.1, fun c hc => ?_⟩
  rw [← t.execute_bind (fun a s c hc => (hg a s).2.2 c hc) hc (s, c)]
  change EStateM.bind x f (s, c) = EStateM.bind _ f (s, c)
  unfold EStateM.bind
  rw [hexecute c hc]

theorem Scripted.congr {x x' : Acting κ α} (hx : Scripted m steady x s)
    (h : ∀ k, x' (s, k) = x (s, k)) : Scripted m steady x' s := by
  obtain ⟨t, hfirst, ht, hexecute⟩ := hx
  exact ⟨t, hfirst, ht, fun c hc => (h c).trans (hexecute c hc)⟩

theorem scripted_ofExcept_bind {result : Except Fault α} {f : α → Acting κ β}
    (hf : ∀ a, Scripted m steady (f a) s) : Scripted m steady (Action.ofExcept result >>= f) s := by
  cases result with
  | error fault => exact scripted_raise fault
  | ok a => exact hf a

open Acting

theorem scripted_current_bind {f : Session → Acting κ β} (hf : Scripted m steady (f s) s) :
    Scripted m steady (current >>= f) s := hf

/-- Of the carrier only the greatest frame may matter. -/
theorem scripted_get_bind {f : Session × κ → Acting κ β}
    (hf : ∃ x : Acting κ β, Scripted m steady x s ∧
      ∀ c, FrameCarrier.maxFrameSize c = m → f (s, c) = x) :
    Scripted m steady (get >>= f) s := by
  obtain ⟨x, ⟨t, hfirst, ht, hexecute⟩, hf⟩ := hf
  refine ⟨t, hfirst, ht, fun c hc => ?_⟩
  rw [Action.get_bind, hf c hc, hexecute c hc]

theorem scripted_update_bind {change : Session → Session} {f : Unit → Acting κ β}
    (hstate : steady = true → (change s).state = s.state)
    (hf : Scripted m steady (f ()) (change s)) : Scripted m steady (update change >>= f) s := by
  obtain ⟨t, hfirst, ht⟩ := hf
  exact ⟨t, fun h => (hfirst h).trans (hstate h), ht⟩

theorem scripted_update {change : Session → Session}
    (hstate : steady = true → (change s).state = s.state) :
    Scripted (κ := κ) m steady (update change) s :=
  ⟨.done (.ok ()) (change s), hstate, trivial, fun _ _ => rfl⟩

theorem emit_of_ok {p : Performative} {k k' : κ}
    (h : FrameCarrier.carry s.channel p k = .ok () k') : emit p (s, k) = .ok () (s, k') := by
  unfold emit
  dsimp only
  rw [h]

theorem emit_of_error {p : Performative} {halt : Halt} {k k' : κ}
    (h : FrameCarrier.carry s.channel p k = .error halt k') :
    emit p (s, k) = .error halt (s, k') := by
  unfold emit
  dsimp only
  rw [h]

variable [SizedCarrier κ]

/-- What follows a frame need not be steady. -/
theorem scripted_emit_bind {p : Performative} {f : Unit → Acting κ β}
    (hp : p.Suits m) (hf : Scripted m false (f ()) s) :
    Scripted m steady (emit p >>= f) s := by
  obtain ⟨t, -, ht, hexecute⟩ := hf
  refine ⟨.say s p t, fun _ => rfl, ⟨hp, ht⟩, fun c hc => ?_⟩
  have hsize := SizedCarrier.maxFrameSize_carry s.channel p c
  unfold Script.execute
  cases hcarry : FrameCarrier.carry s.channel p c with
  | error halt c' => exact Action.bind_of_error (emit_of_error hcarry)
  | ok _ c' =>
    rw [hcarry] at hsize
    exact (Action.bind_of_ok (emit_of_ok hcarry)).trans (hexecute c' (hsize.trans hc))

theorem scripted_emit {p : Performative} (hp : p.Suits m) :
    Scripted (κ := κ) m steady (emit p) s := by
  have hbind : (emit p : Acting κ Unit) = emit p >>= pure := (bind_pure _).symm
  rw [hbind]
  exact scripted_emit_bind hp (scripted_pure ())

/-! ## Outputs of links -/

theorem scripted_sendFlow (flow : Option Flow) : Scripted (κ := κ) m steady (sendFlow flow) s :=
  scripted_current_bind (scripted_emit (Performative.suits_of_not_takesPayload rfl rfl m))

theorem scripted_sendOutput (output : Link.Output) :
    Scripted (κ := κ) m steady (sendOutput output) s := by
  cases output with
  | flow v => exact scripted_sendFlow _
  | _ => exact scripted_emit (Performative.suits_of_not_takesPayload rfl rfl m)

theorem scripted_sendOutputs (outputs : List Link.Output) :
    Scripted (κ := κ) m steady (sendOutputs outputs) s := by
  induction outputs generalizing s with
  | nil => exact scripted_pure ()
  | cons output outputs ih => exact (scripted_sendOutput output).bind fun _ _ => ih

theorem scripted_commit {change : Session × List Link.Output}
    (hstate : steady = true → change.1.state = s.state) :
    Scripted (κ := κ) m steady (commit change) s :=
  scripted_update_bind hstate (scripted_sendOutputs _)

theorem scripted_transition (state : State) : Scripted (κ := κ) m false (transition state) s :=
  scripted_current_bind (scripted_commit nofun)

/-! ## Calls of the owner -/

theorem scripted_sendBegin_bind {f : Unit → Acting κ β} (hf : Scripted m false (f ()) s) :
    Scripted m steady (sendBegin >>= f) s :=
  scripted_emit_bind (p := .begin s.toBegin) (Performative.suits_of_not_takesPayload rfl rfl m) hf

theorem scripted_sendEnd_bind (error : Option ErrorInfo) {f : Unit → Acting κ β}
    (hf : Scripted m false (f ()) s) : Scripted m steady (sendEnd error >>= f) s :=
  scripted_emit_bind (Performative.suits_of_not_takesPayload rfl rfl m) hf

theorem scripted_begin (wait : Patience) : Scripted (κ := κ) m steady (begin wait) s := by
  unfold begin
  refine scripted_current_bind ?_
  dsimp only
  split_ifs
  · exact scripted_raise _
  · exact scripted_raise _
  · exact scripted_raise _
  · exact scripted_sendBegin_bind (f := fun _ => (transition .beginSent : Acting κ Unit))
      (scripted_transition _)

theorem scripted_finish (error : Option ErrorInfo) :
    Scripted (κ := κ) m steady (finish error) s := by
  unfold finish
  refine scripted_current_bind ?_
  split
  · exact scripted_sendEnd_bind error
      (f := fun _ => (transition (if error.isSome then .discarding else .endSent) : Acting κ Unit))
      (scripted_transition _)
  · exact scripted_pure ()

theorem scripted_attach (name : String) : Scripted (κ := κ) m steady (attach name) s := by
  unfold attach
  refine scripted_current_bind (scripted_ofExcept_bind fun l => ?_)
  split_ifs
  · exact scripted_commit fun _ => rfl
  · exact scripted_update fun _ => rfl

theorem scripted_detach (name : String) (close : Bool) (error : Option ErrorInfo) :
    Scripted (κ := κ) m steady (detach name close error) s := by
  unfold detach
  refine scripted_current_bind (scripted_ofExcept_bind fun l => ?_)
  split_ifs
  · exact scripted_update fun _ => congrArg Seat.state (seat_remove name s)
  · exact scripted_commit fun _ => rfl

theorem scripted_sendTransfers {ts : List Transfer}
    (hts : ∀ t ∈ ts, Frame.size (.transfer t) ≤ m.toNat) :
    Scripted (κ := κ) m steady (sendTransfers ts) s := by
  induction ts generalizing s steady with
  | nil => exact scripted_pure ()
  | cons t ts ih =>
    obtain ⟨ht, hrest⟩ := List.forall_mem_cons.1 hts
    exact scripted_emit_bind ⟨rfl, fun _ => ht⟩ (scripted_update_bind nofun (ih hrest))

theorem scripted_sendDelivery (t : Transfer) :
    Scripted (κ := κ) m steady (sendDelivery t) s := by
  unfold sendDelivery
  refine scripted_get_bind ⟨_, ?_, fun c hc => by dsimp only; rw [hc]⟩
  split_ifs
  · exact scripted_pure _
  · exact scripted_pure _
  cases hsplit : t.split m with
  | error f => exact scripted_raise f
  | ok ts =>
    change Scripted m steady (if _ then _ else _) s
    split_ifs
    · exact scripted_pure _
    · exact (scripted_sendTransfers fun u => size_le_of_mem_stamp hsplit).bind
        fun _ _ => scripted_pure _

theorem scripted_send (now : Nat) (name : String) (payload : Bytes) (settled : Bool) :
    Scripted (κ := κ) m steady (send now name payload settled) s := by
  unfold send
  refine scripted_current_bind ?_
  split_ifs
  · exact scripted_pure _
  refine scripted_ofExcept_bind fun v => scripted_ofExcept_bind fun drafted => ?_
  obtain ⟨t | t, v'⟩ := drafted
  · exact scripted_pure _
  · refine scripted_update_bind (fun _ => rfl) ((scripted_sendDelivery t).bind fun outcome s => ?_)
    cases outcome with
    | sent id => exact scripted_update_bind (fun _ => rfl) (scripted_pure _)
    | _ => exact scripted_pure _

theorem scripted_grantCredit (name : String) (credit : UInt32) :
    Scripted (κ := κ) m steady (grantCredit name credit) s :=
  scripted_current_bind (scripted_ofExcept_bind fun _ => scripted_ofExcept_bind fun _ =>
    scripted_commit fun _ => rfl)

theorem scripted_settle (name : String) (deliveryId : UInt32) (state : DeliveryState) :
    Scripted (κ := κ) m steady (settle name deliveryId state) s :=
  scripted_current_bind (scripted_ofExcept_bind fun _ => scripted_ofExcept_bind fun _ =>
    scripted_commit fun _ => rfl)

/-! ## Frames of the peer -/

theorem scripted_onBegin (remoteChannel : UInt16) (v : Begin) :
    Scripted (κ := κ) m false (onBegin remoteChannel v) s := by
  unfold onBegin
  refine scripted_update_bind nofun (scripted_current_bind ?_)
  split
  · exact scripted_update_bind nofun (scripted_transition _)
  · refine scripted_update_bind nofun ((scripted_transition _).bind fun _ _ => ?_)
    exact scripted_sendBegin_bind (scripted_transition _)
  · exact scripted_pure ()

theorem scripted_onEnd : Scripted (κ := κ) m false onEnd s := by
  unfold onEnd
  refine scripted_current_bind ?_
  dsimp only
  have hrest : ∀ s, Scripted (κ := κ) m false
      (transition .unmapped >>= fun _ => update dropLinks) s := fun s =>
    (scripted_transition _).bind fun _ _ => scripted_update nofun
  split_ifs
  · exact (scripted_transition _).bind fun _ _ => scripted_sendEnd_bind none (hrest _)
  · exact hrest s

theorem scripted_abort (error : ErrorInfo) (f : Fault) :
    Scripted (κ := κ) m false (abort error f) s :=
  scripted_sendEnd_bind _ ((scripted_transition _).bind fun _ _ => scripted_raise f)

theorem scripted_onAttach (attach : Attach) : Scripted (κ := κ) m false (onAttach attach) s := by
  have hknown (link : Link) : Scripted (κ := κ) m false (commit (s.attachKnown attach link)) s :=
    scripted_commit nofun
  have hnew : Scripted (κ := κ) m false (Action.ofExcept (s.attachNew attach) >>= commit) s :=
    scripted_ofExcept_bind fun _ => scripted_commit nofun
  rcases onAttach_cases (κ := κ) attach s with
    ⟨holder, heq⟩ | ⟨-, ⟨l, -, heq⟩ | ⟨-, heq⟩⟩
  · exact (scripted_abort _ _).congr heq
  · exact (hknown l).congr heq
  · exact hnew.congr heq

theorem scripted_onFlow (flow : Flow) : Scripted (κ := κ) m false (onFlow flow) s := by
  unfold onFlow
  refine scripted_update_bind nofun (scripted_current_bind ?_)
  split
  · exact scripted_commit nofun
  · split
    · exact scripted_abort _ _
    · exact scripted_ofExcept_bind fun _ => scripted_commit nofun

theorem scripted_replenish : Scripted (κ := κ) m false replenish s := by
  unfold replenish
  refine scripted_current_bind ?_
  split_ifs
  · exact scripted_update_bind nofun (scripted_sendFlow none)
  · exact scripted_pure ()

theorem scripted_onTransfer (t : Transfer) : Scripted (κ := κ) m false (onTransfer t) s := by
  unfold onTransfer
  refine scripted_update_bind nofun (scripted_current_bind ?_)
  split
  · exact scripted_abort _ _
  · refine scripted_ofExcept_bind fun _ => scripted_ofExcept_bind fun _ => ?_
    exact Scripted.bind (scripted_commit (fun h => absurd h Bool.false_ne_true))
      fun _ _ => scripted_replenish

theorem scripted_onDisposition (d : Disposition) :
    Scripted (κ := κ) m false (onDisposition d) s :=
  scripted_current_bind (scripted_commit nofun)

theorem scripted_onDetach (detach : Detach) : Scripted (κ := κ) m false (onDetach detach) s := by
  unfold onDetach
  refine scripted_current_bind ?_
  split
  · exact scripted_abort _ _
  · refine scripted_ofExcept_bind fun _ =>
      Scripted.bind (scripted_commit (fun h => absurd h Bool.false_ne_true)) fun _ s => ?_
    split_ifs
    · exact scripted_update nofun
    · exact scripted_pure ()

/-- Every frame of the peer is taken by a script. -/
theorem scripted_dispatch (remoteChannel : UInt16) (p : Performative) :
    Scripted (κ := κ) m false (dispatch remoteChannel p) s := by
  cases p with
  | begin v => exact scripted_onBegin remoteChannel v
  | attach v => exact scripted_onAttach v
  | flow v => exact scripted_onFlow v
  | transfer v => exact scripted_onTransfer v
  | disposition v => exact scripted_onDisposition v
  | detach v => exact scripted_onDetach v
  | endFrame v => exact scripted_onEnd
  | openFrame v | close v => exact scripted_raise _

end

end Session

end Amqp
