import Amqp.Proofs.Session.Events
import Amqp.Proofs.Session.Scripts

/-!
# Calls of a session's owner

A `Call` is what the owner of a session can ask of it.  All calls have steady scripts
(`scripted_perform`): until its first frame is accepted, a session that is called keeps its state.
-/

namespace Amqp.Session

variable {κ : Type} [FrameCarrier κ] {m : UInt32}

open Acting

/-- A call of a session's owner. -/
inductive Call where
  | begin (wait : Patience)
  | finish (error : Option ErrorInfo)
  | addSender (unique target : String) (settings : Option Settings.Link)
  | addReceiver (unique source : String) (settings : Option Settings.Link)
  | attach (name : String)
  | detach (name : String) (close : Bool) (error : Option ErrorInfo)
  | send (now : Nat) (name : String) (payload : Bytes) (settled : Bool)
  | sendDelivery (transfer : Transfer)
  | sendFlow (flow : Option Flow)
  | grantCredit (name : String) (credit : UInt32)
  | settle (name : String) (deliveryId : UInt32) (state : DeliveryState)
  | receive (name : String)
  | collectOutcome (name : String) (deliveryId : UInt32)
  | evaluate (now : Nat)

/-- What a session does upon a call. -/
def Call.perform : Call → Acting κ Unit
  | .begin wait => Session.begin wait
  | .finish error => Session.finish error
  | .addSender unique target settings => adopt (Session.addSender unique target settings)
  | .addReceiver unique source settings => adopt (Session.addReceiver unique source settings)
  | .attach name => Session.attach name
  | .detach name close error => Session.detach name close error
  | .send now name payload settled => discard (Session.send now name payload settled)
  | .sendDelivery transfer => discard (Session.sendDelivery transfer)
  | .sendFlow flow => Session.sendFlow flow
  | .grantCredit name credit => Session.grantCredit name credit
  | .settle name deliveryId state => Session.settle name deliveryId state
  | .receive name => adopt (Session.receive name)
  | .collectOutcome name deliveryId => adopt (Session.collectOutcome name deliveryId)
  | .evaluate now => update (Session.evaluate now)

/-! ## Calls without frames -/

theorem seat_of_adds {name : String} {s s' : Session} (h : Adds name s s') :
    s'.seat = s.seat := by
  obtain ⟨l, handle, -, -, rfl⟩ := h
  rfl

theorem seat_of_receive {name : String} {s : Session} {result : Option Link.Message × Session}
    (h : s.receive name = .ok result) : result.2.seat = s.seat := by
  unfold receive at h
  cases hv : s.receiver name with
  | error f =>
    rw [hv] at h
    cases h
  | ok v =>
    rw [hv] at h
    cases h
    rfl

theorem seat_of_collectOutcome {name : String} {deliveryId : UInt32} {s : Session}
    {result : Option Link.Outcome × Session} (h : s.collectOutcome name deliveryId = .ok result) :
    result.2.seat = s.seat := by
  unfold collectOutcome at h
  cases hv : s.sender name with
  | error f =>
    rw [hv] at h
    cases h
  | ok v =>
    rw [hv] at h
    cases h
    rfl

theorem scripted_adopt {α : Type} {call : Session → Except Fault (α × Session)} {s : Session}
    {steady : Bool} (h : ∀ result, call s = .ok result → result.2.seat = s.seat) :
    Scripted (κ := κ) m steady (adopt call) s := by
  unfold adopt
  refine scripted_current_bind ?_
  cases hresult : call s with
  | error f => exact scripted_raise f
  | ok result =>
    have hupdate : Scripted (κ := κ) m steady (update fun _ => result.2) s :=
      scripted_update fun _ => congrArg Seat.state (h result hresult)
    exact hupdate

/-! ## All calls -/

theorem Scripted.discard [SizedCarrier κ] {α : Type} {steady : Bool} {x : Acting κ α} {s : Session}
    (h : Scripted m steady x s) : Scripted m steady (discard x) s := by
  have hbind : (Functor.discard x : Acting κ Unit) = x >>= fun _ => pure () := rfl
  rw [hbind]
  exact h.bind fun _ _ => scripted_pure ()

/-- Every call has a steady script. -/
theorem scripted_perform [SizedCarrier κ] (call : Call) (s : Session) :
    Scripted (κ := κ) m true call.perform s := by
  cases call with
  | begin wait => exact scripted_begin wait
  | finish error => exact scripted_finish error
  | addSender unique target settings =>
    exact scripted_adopt fun _ h => seat_of_adds (adds_addSender h)
  | addReceiver unique source settings =>
    exact scripted_adopt fun _ h => seat_of_adds (adds_addReceiver h)
  | attach name => exact scripted_attach name
  | detach name close error => exact scripted_detach name close error
  | send now name payload settled => exact (scripted_send now name payload settled).discard
  | sendDelivery transfer => exact (scripted_sendDelivery transfer).discard
  | sendFlow flow => exact scripted_sendFlow flow
  | grantCredit name credit => exact scripted_grantCredit name credit
  | settle name deliveryId state => exact scripted_settle name deliveryId state
  | receive name => exact scripted_adopt fun _ h => seat_of_receive h
  | collectOutcome name deliveryId => exact scripted_adopt fun _ h => seat_of_collectOutcome h
  | evaluate now => exact scripted_update fun _ => rfl

end Amqp.Session
