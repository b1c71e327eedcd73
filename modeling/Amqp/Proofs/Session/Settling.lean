import Amqp.Proofs.Session.Terms

/-!
# Sessions that keep their seats

Apart from the peer's Begin nothing gives a session another seat, and nothing maps a session that
was not mapped: `Settles` says this of a session before and after an action.  It is proved for the
calls of the owner and for all frames of the peer but the Begin; a Begin leaves a session in its
seat or gives it the channel on which it came (`leaves_onBegin`).
-/

namespace Amqp.Session

/-- Whether a session becomes another one without a new seat and without being mapped by it. -/
structure Settles (s s' : Session) : Prop where
  channel_eq : s'.channel = s.channel
  remoteChannel_eq : s'.remoteChannel = s.remoteChannel
  mapped : s'.state = .mapped → s.state = .mapped

theorem settles_followConnection (state : Connection.State) (s : Session) :
    s.Settles (s.followConnection state) := by
  unfold followConnection
  dsimp only
  split_ifs
  · exact ⟨rfl, rfl, nofun⟩
  · exact ⟨rfl, rfl, id⟩

theorem settles_evaluate (now : Nat) (s : Session) : s.Settles (s.evaluate now) := ⟨rfl, rfl, id⟩

/-- Terms of the seat alone, which is kept in every case. -/
def Terms.ofSeat (κ : Type) (R : Seat → Prop) : Terms κ where
  kept seat _ := R seat
  stopped _ seat _ := R seat
  raises _ := True

theorem Terms.leaves_of_meets {κ α : Type} {R : Seat → Prop}
    {r : EStateM.Result Halt (Session × κ) α} (h : (Terms.ofSeat κ R).Meets r) :
    Action.Leaves (fun y => R y.1.seat) r := by
  cases r <;> exact h

/-- The terms of a session that settles. -/
def Terms.settling (κ : Type) (s : Session) : Terms κ :=
  .ofSeat κ fun seat => seat.channel = s.channel ∧ seat.remoteChannel = s.remoteChannel ∧
    (seat.state = .mapped → s.state = .mapped)

theorem Terms.enters_settling {κ : Type} {s : Session} {state : State} (h : state ≠ .mapped) :
    (Terms.settling κ s).Enters state :=
  fun hkept => ⟨hkept.1, hkept.2.1, fun hmapped => absurd hmapped h⟩

theorem Terms.Governs.settles {κ α : Type} {s : Session} {x : Acting κ α}
    (h : (Terms.settling κ s).Governs x s) (k : κ) :
    Action.Leaves (fun y => s.Settles y.1) (x (s, k)) :=
  (leaves_of_meets (h k ⟨rfl, rfl, id⟩)).mono fun _ h => ⟨h.1, h.2.1, h.2.2⟩

section

variable {κ : Type} [FrameCarrier κ] {s : Session}

theorem Terms.hold_ofSeat (R : Seat → Prop) : (Terms.ofSeat κ R).Hold where
  carry {seat k p} _ hkept := by
    cases hcarry : FrameCarrier.carry seat.channel p k with
    | ok _ k' => exact Or.inl ⟨k', rfl, hkept⟩
    | error halt k' => exact Or.inr ⟨halt, k', rfl, hkept⟩
  raise _ hkept := hkept
  isSessionLocal _ := trivial

theorem settles_perform (call : Call) (k : κ) :
    Action.Leaves (fun y => s.Settles y.1) (call.perform (s, k)) :=
  (Terms.governs_perform (Terms.hold_ofSeat _) (fun _ => trivial)
    (Terms.enters_settling (by decide)) (Terms.enters_settling (by decide))
    (Terms.enters_settling (by decide)) call).settles k

theorem settles_linkFrame {p : Performative} (remoteChannel : UInt16) (hp : p.isOfLink = true)
    (k : κ) : Action.Leaves (fun y => s.Settles y.1) (dispatch remoteChannel p (s, k)) := by
  have hadmits : (Terms.settling κ s).Admits s p := by
    cases p with
    | attach v => exact fun _ _ _ _ => trivial
    | transfer t => exact fun _ _ _ _ _ _ => trivial
    | _ => trivial
  exact (Terms.governs_linkFrame (Terms.hold_ofSeat _) remoteChannel hp
    (Terms.enters_settling (by decide)) hadmits).settles k

theorem settles_onEnd (k : κ) : Action.Leaves (fun y => s.Settles y.1) (onEnd (s, k)) :=
  (Terms.governs_onEnd (Terms.hold_ofSeat _) (Terms.enters_settling (by decide))
    (Terms.enters_settling (by decide))).settles k

/-- A session that has not met the peer gets the channel on which the Begin came. -/
theorem leaves_onBegin_of_unmet (remoteChannel : UInt16) (v : Begin)
    (hstate : s.state = .beginSent ∨ s.state = .unmapped) (k : κ) :
    Action.Leaves (fun y => y.1.channel = s.channel ∧ y.1.remoteChannel = some remoteChannel)
      (onBegin remoteChannel v (s, k)) := by
  have hmeets := Terms.meets_onBegin (Terms.hold_ofSeat (κ := κ) fun seat =>
    seat.channel = s.channel ∧ seat.remoteChannel = some remoteChannel)
    (fun _ _ _ hkept => hkept) v hstate (k := k) ⟨rfl, rfl⟩
  exact Terms.leaves_of_meets hmeets

/-- A Begin leaves a session in its seat, or gives it the channel on which it came. -/
theorem leaves_onBegin (remoteChannel : UInt16) (v : Begin) (k : κ) :
    Action.Leaves
      (fun y => s.Settles y.1 ∨
        y.1.channel = s.channel ∧ y.1.remoteChannel = some remoteChannel)
      (onBegin remoteChannel v (s, k)) := by
  by_cases h : s.state = .beginSent ∨ s.state = .unmapped
  · exact (leaves_onBegin_of_unmet remoteChannel v h k).mono fun _ => Or.inr
  · obtain ⟨hsent, hunmapped⟩ := not_or.1 h
    rw [Terms.onBegin_of_met remoteChannel v hsent hunmapped]
    exact Or.inl ⟨rfl, rfl, id⟩

end

end Amqp.Session
