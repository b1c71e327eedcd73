import Amqp.Proofs.Session.Calls

/-!
# Refused operations

An operation of a session that is refused leaves no trace.  It fails before anything has changed, or
when its carrier refuses a frame; so if it fails and the carrier, which is watched by a `Monitor`,
has refused nothing, session and carrier are what they were (`refuses_perform`).  Only a delivery
that is sent on a link may use up a delivery tag before the session refuses it.
-/

namespace Amqp

/-! ## Monitors -/

/-- A carrier with the number of frames that it has refused. -/
structure Monitor (κ : Type) where
  carrier : κ
  refusals : Nat := 0

namespace Monitor

variable {κ : Type} [FrameCarrier κ]

/-- Hands a frame to the carrier and counts it if it is refused. -/
def carry (channel : UInt16) (p : Performative) : Action (Monitor κ) Unit := fun m =>
  match FrameCarrier.carry channel p m.carrier with
  | .ok _ carrier => .ok () { m with carrier }
  | .error halt carrier => .error halt { carrier, refusals := m.refusals + 1 }

instance : FrameCarrier (Monitor κ) where
  state m := FrameCarrier.state m.carrier
  maxFrameSize m := FrameCarrier.maxFrameSize m.carrier
  carry := carry

theorem refusals_of_carry_eq_ok {channel : UInt16} {p : Performative} {m m' : Monitor κ}
    (h : FrameCarrier.carry channel p m = .ok () m') : m'.refusals = m.refusals := by
  change carry channel p m = _ at h
  unfold carry at h
  split at h
  · cases h
    rfl
  · cases h

theorem refusals_of_carry_eq_error {channel : UInt16} {p : Performative} {m m' : Monitor κ}
    {halt : Halt} (h : FrameCarrier.carry channel p m = .error halt m') :
    m'.refusals = m.refusals + 1 := by
  change carry channel p m = _ at h
  unfold carry at h
  split at h
  · cases h
  · cases h
    rfl

end Monitor

namespace Session

open Amqp.Action Acting

variable {κ α β : Type}

/-- How many frames of a session have been refused. -/
def refusals (y : Session × Recorder (Monitor κ)) : Nat := y.2.carrier.refusals

/-! ## Actions that only speak -/

/-- Whether an action gets to its end unless a frame is refused, at which it stops. -/
structure Speaks (x : Acting (Recorder (Monitor κ)) α) : Prop where
  ok : ∀ y a z, x y = .ok a z → refusals z = refusals y
  error : ∀ y halt z, x y = .error halt z → refusals z = refusals y + 1

theorem speaks_pure (a : α) : Speaks (κ := κ) (pure a) where
  ok _ _ _ h := by
    cases h
    rfl
  error _ _ _ h := by cases h

theorem speaks_update (change : Session → Session) : Speaks (κ := κ) (update change) where
  ok _ _ _ h := by
    cases h
    rfl
  error _ _ _ h := by cases h

theorem Speaks.bind {x : Acting (Recorder (Monitor κ)) α}
    {f : α → Acting (Recorder (Monitor κ)) β} (hx : Speaks x) (hf : ∀ a, Speaks (f a)) :
    Speaks (x >>= f) where
  ok y b z h := by
    obtain ⟨a, y', hy', hz⟩ := bind_eq_ok h
    exact ((hf a).ok y' b z hz).trans (hx.ok y a y' hy')
  error y halt z h := by
    cases hresult : x y with
    | error halt' y' =>
      rw [bind_of_error hresult] at h
      cases h
      exact hx.error y halt z hresult
    | ok a y' =>
      rw [bind_of_ok hresult] at h
      rw [(hf a).error y' halt z h, hx.ok y a y' hresult]

theorem speaks_current_bind {f : Session → Acting (Recorder (Monitor κ)) α}
    (hf : ∀ s, Speaks (f s)) : Speaks (current >>= f) where
  ok y := (hf y.1).ok y
  error y := (hf y.1).error y

/-! ## Actions that refuse -/

/-- Whether a condition holds of what an action leaves if it refuses to act: it fails though no
frame has been refused, or it comes to a result that declines. -/
structure Refuses (declines : α → Prop) (post : Session × Recorder (Monitor κ) → Prop)
    (x : Acting (Recorder (Monitor κ)) α) (y : Session × Recorder (Monitor κ)) : Prop where
  error : ∀ halt z, x y = .error halt z → refusals z = refusals y → post z
  ok : ∀ a z, x y = .ok a z → declines a → post z

section

variable {declines : α → Prop} {post : Session × Recorder (Monitor κ) → Prop}
  {y z : Session × Recorder (Monitor κ)}

theorem Refuses.mono {post' : Session × Recorder (Monitor κ) → Prop}
    {x : Acting (Recorder (Monitor κ)) α} (hx : Refuses declines post x y)
    (hpost : ∀ z, post z → post' z) : Refuses declines post' x y where
  error halt z hz hsame := hpost z (hx.error halt z hz hsame)
  ok a z hz hdeclines := hpost z (hx.ok a z hz hdeclines)

/-- What follows an action does not refuse by itself. -/
theorem Refuses.bind {declines' : β → Prop} {x : Acting (Recorder (Monitor κ)) β}
    {f : β → Acting (Recorder (Monitor κ)) α} (hx : Refuses declines' post x y)
    (hf : ∀ b z, ∃ a z', f b z = .ok a z' ∧ (declines a → declines' b ∧ z' = z)) :
    Refuses declines post (x >>= f) y := by
  cases hresult : x y with
  | error halt y' =>
    constructor
    · intro halt' z hz hsame
      rw [bind_of_error hresult] at hz
      cases hz
      exact hx.error halt _ hresult hsame
    · intro a z hz
      rw [bind_of_error hresult] at hz
      cases hz
  | ok b y' =>
    obtain ⟨a, z', hz', hdeclined⟩ := hf b y'
    constructor
    · intro halt z hz
      rw [bind_of_ok hresult, hz'] at hz
      cases hz
    · intro a' z hz hdeclines
      rw [bind_of_ok hresult, hz'] at hz
      cases hz
      obtain ⟨hb, rfl⟩ := hdeclined hdeclines
      exact hx.ok b _ hresult hb

theorem refuses_pure (a : α) (h : post y) : Refuses declines post (pure a) y where
  error _ _ hz _ := by cases hz
  ok _ _ hz _ := by
    cases hz
    exact h

theorem refuses_raise (f : Fault) (h : post y) : Refuses declines post (raise f) y where
  error _ _ hz _ := by
    cases hz
    exact h
  ok _ _ hz _ := by cases hz

theorem refuses_ofExcept_bind {result : Except Fault β}
    {f : β → Acting (Recorder (Monitor κ)) α} (h : post y)
    (hf : ∀ b, result = .ok b → Refuses declines post (f b) y) :
    Refuses declines post (ofExcept result >>= f) y := by
  cases result with
  | error fault => exact refuses_raise fault h
  | ok b => exact hf b rfl

theorem refuses_current_bind {f : Session → Acting (Recorder (Monitor κ)) α}
    (hf : Refuses declines post (f y.1) y) : Refuses declines post (current >>= f) y :=
  ⟨hf.error, hf.ok⟩

theorem refuses_get_bind {f : Session × Recorder (Monitor κ) → Acting (Recorder (Monitor κ)) α}
    (hf : Refuses declines post (f y) y) : Refuses declines post (get >>= f) y :=
  ⟨hf.error, hf.ok⟩

theorem refuses_update_bind {change : Session → Session}
    {f : Unit → Acting (Recorder (Monitor κ)) α}
    (hf : Refuses declines post (f ()) (change y.1, y.2)) :
    Refuses declines post (update change >>= f) y :=
  ⟨hf.error, hf.ok⟩

/-- What only speaks does not refuse. -/
theorem Speaks.refuses {x : Acting (Recorder (Monitor κ)) α} (hx : Speaks x)
    (hok : ∀ a z, x y = .ok a z → ¬ declines a) : Refuses declines post x y where
  error halt z hz hsame := by
    have hrefused := hx.error y halt z hz
    omega
  ok a z hz hdeclines := absurd hdeclines (hok a z hz)

/-- If no frame is refused, what is said first is said to the end. -/
theorem Speaks.exists_of_bind_eq_error {x : Acting (Recorder (Monitor κ)) β}
    {f : β → Acting (Recorder (Monitor κ)) α} (hx : Speaks x) {halt : Halt}
    (h : (x >>= f) y = .error halt z) (hsame : refusals z = refusals y) :
    ∃ b y', refusals z = refusals y' ∧ f b y' = .error halt z := by
  cases hresult : x y with
  | error halt' y' =>
    rw [bind_of_error hresult] at h
    cases h
    have hrefused := hx.error y halt z hresult
    omega
  | ok b y' =>
    rw [bind_of_ok hresult] at h
    exact ⟨b, y', hsame.trans (hx.ok y b y' hresult).symm, h⟩

end

/-- No result of a call that comes to its end declines. -/
def never (_ : Unit) : Prop := False

/-- Whether a delivery has not been sent. -/
def SendOutcome.declines (outcome : SendOutcome) : Prop := ∀ id, outcome ≠ .sent id

/-- Whether a session has at most used up a tag of a sending link. -/
def SpendsTag (name : String) (s s' : Session) : Prop :=
  s' = s ∨ ∃ v, s.links.get? name = some (.sender v) ∧
    s' = s.withLink name (.sender { v with nextTag := v.nextTag + 1 })

variable [FrameCarrier κ]

/-! ## Frames -/

theorem speaks_emit (p : Performative) : Speaks (κ := κ) (emit p) := by
  have hcases (s : Session) (r : Recorder (Monitor κ)) :
      (∃ m, m.refusals = r.carrier.refusals ∧ emit p (s, r) =
        .ok () (s, { carrier := m, frames := r.frames ++ [(s.channel, p)] })) ∨
      ∃ halt m, m.refusals = r.carrier.refusals + 1 ∧
        emit p (s, r) = .error halt (s, { r with carrier := m }) := by
    cases hcarry : FrameCarrier.carry s.channel p r.carrier with
    | ok _ m =>
      exact Or.inl ⟨m, Monitor.refusals_of_carry_eq_ok hcarry, emit_of_accepts hcarry⟩
    | error halt m =>
      exact Or.inr ⟨halt, m, Monitor.refusals_of_carry_eq_error hcarry, emit_of_refuses hcarry⟩
  constructor
  · rintro ⟨s, r⟩ a z h
    rcases hcases s r with ⟨m, hm, hemit⟩ | ⟨halt, m, -, hemit⟩
    · rw [hemit] at h
      cases h
      exact hm
    · rw [hemit] at h
      cases h
  · rintro ⟨s, r⟩ halt z h
    rcases hcases s r with ⟨m, -, hemit⟩ | ⟨halt', m, hm, hemit⟩
    · rw [hemit] at h
      cases h
    · rw [hemit] at h
      cases h
      exact hm

theorem speaks_sendFlow (flow : Option Flow) : Speaks (κ := κ) (sendFlow flow) :=
  speaks_current_bind fun _ => speaks_emit _

theorem speaks_sendOutput (output : Link.Output) : Speaks (κ := κ) (sendOutput output) := by
  cases output with
  | attach v => exact speaks_emit _
  | flow v => exact speaks_sendFlow _
  | disposition v => exact speaks_emit _
  | detach v => exact speaks_emit _

theorem speaks_sendOutputs (outputs : List Link.Output) :
    Speaks (κ := κ) (sendOutputs outputs) := by
  induction outputs with
  | nil => exact speaks_pure ()
  | cons output outputs ih => exact (speaks_sendOutput output).bind fun _ => ih

theorem speaks_commit (change : Session × List Link.Output) : Speaks (κ := κ) (commit change) :=
  (speaks_update _).bind fun _ => speaks_sendOutputs _

theorem speaks_transition (state : State) : Speaks (κ := κ) (transition state) :=
  speaks_current_bind fun _ => speaks_commit _

theorem speaks_sendTransfers (ts : List Transfer) : Speaks (κ := κ) (sendTransfers ts) := by
  induction ts with
  | nil => exact speaks_pure ()
  | cons t ts ih => exact (speaks_emit _).bind fun _ => (speaks_update _).bind fun _ => ih

/-! ## Calls -/

section

variable {y : Session × Recorder (Monitor κ)}

omit [FrameCarrier κ] in
theorem Speaks.refuses_never {x : Acting (Recorder (Monitor κ)) Unit} (hx : Speaks x) :
    Refuses never (· = y) x y :=
  hx.refuses fun _ _ _ => id

theorem refuses_begin (wait : Patience) : Refuses never (· = y) (begin wait) y := by
  have hopening : Speaks (κ := κ) (sendBegin >>= fun _ => transition .beginSent) :=
    (speaks_current_bind fun _ => speaks_emit _).bind fun _ => speaks_transition _
  refine refuses_current_bind ?_
  dsimp only
  split_ifs
  · exact refuses_raise _ rfl
  · exact refuses_raise _ rfl
  · exact refuses_raise _ rfl
  · exact hopening.refuses_never

theorem refuses_finish (error : Option ErrorInfo) :
    Refuses never (· = y) (finish error) y := by
  have hclosing (state : State) : Speaks (κ := κ) (sendEnd error >>= fun _ => transition state) :=
    (speaks_emit _).bind fun _ => speaks_transition _
  refine refuses_current_bind ?_
  split_ifs
  · exact (hclosing _).refuses_never
  · exact (hclosing _).refuses_never
  · exact refuses_pure _ rfl

omit [FrameCarrier κ] in
theorem refuses_adopt (call : Session → Except Fault (α × Session)) :
    Refuses never (· = y) (adopt call) y :=
  refuses_current_bind (refuses_ofExcept_bind rfl fun _ _ => (speaks_update _).refuses_never)

theorem refuses_attach (name : String) : Refuses never (· = y) (attach name) y := by
  refine refuses_current_bind (refuses_ofExcept_bind rfl fun l _ => ?_)
  split_ifs
  · exact (speaks_commit _).refuses_never
  · exact (speaks_update _).refuses_never

theorem refuses_detach (name : String) (close : Bool) (error : Option ErrorInfo) :
    Refuses never (· = y) (detach name close error) y := by
  refine refuses_current_bind (refuses_ofExcept_bind rfl fun l _ => ?_)
  split_ifs
  · exact (speaks_update _).refuses_never
  · exact (speaks_commit _).refuses_never

theorem refuses_grantCredit (name : String) (credit : UInt32) :
    Refuses never (· = y) (grantCredit name credit) y :=
  refuses_current_bind (refuses_ofExcept_bind rfl fun _ _ =>
    refuses_ofExcept_bind rfl fun _ _ => (speaks_commit _).refuses_never)

theorem refuses_settle (name : String) (deliveryId : UInt32) (state : DeliveryState) :
    Refuses never (· = y) (settle name deliveryId state) y :=
  refuses_current_bind (refuses_ofExcept_bind rfl fun _ _ =>
    refuses_ofExcept_bind rfl fun _ _ => (speaks_commit _).refuses_never)

/-- All checks of a delivery come before its first transfer. -/
theorem refuses_sendDelivery (t : Transfer) :
    Refuses SendOutcome.declines (· = y) (sendDelivery t) y := by
  refine refuses_get_bind ?_
  dsimp only
  split_ifs
  · exact refuses_pure _ rfl
  · exact refuses_pure _ rfl
  refine refuses_ofExcept_bind rfl fun ts _ => ?_
  split_ifs
  · exact refuses_pure _ rfl
  · have hsending : Speaks (κ := κ) (sendTransfers (stamp y.1.nextOutgoingId ts) >>= fun _ =>
        pure (SendOutcome.sent y.1.nextOutgoingId)) :=
      (speaks_sendTransfers _).bind fun _ => speaks_pure _
    refine hsending.refuses fun outcome z hz hdeclines => ?_
    obtain ⟨_, _, -, hsent⟩ := bind_eq_ok hz
    cases hsent
    exact hdeclines _ rfl

/-- A delivery on a link may be refused when it has been drafted, and only then with a trace. -/
theorem refuses_send (now : Nat) (name : String) (payload : Bytes) (settled : Bool) :
    Refuses SendOutcome.declines (fun z => z.2 = y.2 ∧ SpendsTag name y.1 z.1)
      (send now name payload settled) y := by
  refine refuses_current_bind ?_
  split_ifs
  · exact refuses_pure _ ⟨rfl, Or.inl rfl⟩
  refine refuses_ofExcept_bind ⟨rfl, Or.inl rfl⟩ fun v hv =>
    refuses_ofExcept_bind ⟨rfl, Or.inl rfl⟩ fun drafted hdraft => ?_
  obtain ⟨t | t, v'⟩ := drafted
  · exact refuses_pure _ ⟨rfl, Or.inl rfl⟩
  refine refuses_update_bind ?_
  have hspent : SpendsTag name y.1 (y.1.withLink name (.sender v')) := by
    obtain ⟨hnone, -⟩ | ⟨-, -, rfl⟩ := Link.Sender.draft_cases hdraft
    · cases hnone
    · exact Or.inr ⟨v, links_of_sender hv, rfl⟩
  have hdelivery : Refuses SendOutcome.declines (fun z => z.2 = y.2 ∧ SpendsTag name y.1 z.1)
      (sendDelivery t) (y.1.withLink name (.sender v'), y.2) := by
    refine (refuses_sendDelivery t).mono fun z hz => ?_
    rw [hz]
    exact ⟨rfl, hspent⟩
  exact hdelivery.bind fun outcome z => by
    cases outcome with
    | sent id => exact ⟨_, _, rfl, fun hdeclines => absurd rfl (hdeclines id)⟩
    | _ => exact ⟨_, _, rfl, fun hdeclines => ⟨hdeclines, rfl⟩⟩

/-- Every call that fails, though no frame has been refused, has left no trace but a tag. -/
theorem refuses_perform (call : Call) :
    Refuses never
      (fun z => z.2 = y.2 ∧ (z.1 = y.1 ∨ ∃ now name payload settled,
        call = .send now name payload settled ∧ SpendsTag name y.1 z.1)) call.perform y := by
  have hdiscard {declines : SendOutcome → Prop} {post : Session × Recorder (Monitor κ) → Prop}
      {x : Acting (Recorder (Monitor κ)) SendOutcome} (hx : Refuses declines post x y) :
      Refuses never post (discard x) y :=
    hx.bind fun _ _ => ⟨_, _, rfl, False.elim⟩
  have hsame {x : Acting (Recorder (Monitor κ)) Unit} (hx : Refuses never (· = y) x y) :
      Refuses never
        (fun z => z.2 = y.2 ∧ (z.1 = y.1 ∨ ∃ now name payload settled,
          call = .send now name payload settled ∧ SpendsTag name y.1 z.1)) x y := by
    refine hx.mono fun z hz => ?_
    rw [hz]
    exact ⟨rfl, Or.inl rfl⟩
  cases call with
  | begin wait => exact hsame (refuses_begin wait)
  | finish error => exact hsame (refuses_finish error)
  | addSender | addReceiver | receive | collectOutcome => exact hsame (refuses_adopt _)
  | attach name => exact hsame (refuses_attach name)
  | detach name close error => exact hsame (refuses_detach name close error)
  | send now name payload settled =>
    refine hdiscard ((refuses_send now name payload settled).mono fun z hz => ?_)
    exact ⟨hz.1, Or.inr ⟨now, name, payload, settled, rfl, hz.2⟩⟩
  | sendDelivery transfer => exact hsame (hdiscard (refuses_sendDelivery transfer))
  | sendFlow flow => exact hsame (speaks_sendFlow flow).refuses_never
  | grantCredit name credit => exact hsame (refuses_grantCredit name credit)
  | settle name deliveryId state => exact hsame (refuses_settle name deliveryId state)
  | evaluate now => exact hsame (speaks_update _).refuses_never

/-! ## Attaches of the peer -/

variable {z : Session × Recorder (Monitor κ)} {halt : Halt}

theorem eq_of_abort {error : ErrorInfo} {f : Fault} (h : abort error f y = .error halt z)
    (hsame : refusals z = refusals y) : halt = .fault f := by
  obtain ⟨_, y₁, hsame, h⟩ := (speaks_emit _).exists_of_bind_eq_error h hsame
  obtain ⟨_, y₂, -, h⟩ := (speaks_transition _).exists_of_bind_eq_error h hsame
  cases h
  rfl

/-- Only an attach on a handle in use is refused with a frame. -/
theorem eq_of_onAttach {attach : Attach} (h : onAttach attach y = .error halt z)
    (hsame : refusals z = refusals y) (hhalt : ∀ handle, halt ≠ .fault (.handleInUse handle)) :
    z = y := by
  obtain ⟨s, r⟩ := y
  have hknown (l : Link) : Refuses never (· = (s, r)) (commit (s.attachKnown attach l)) (s, r) :=
    (speaks_commit _).refuses_never
  have hnew : Refuses never (· = (s, r)) (ofExcept (s.attachNew attach) >>= commit) (s, r) :=
    refuses_ofExcept_bind rfl fun _ _ => (speaks_commit _).refuses_never
  rcases onAttach_cases (κ := Recorder (Monitor κ)) attach s with
    ⟨holder, heq⟩ | ⟨-, ⟨l, -, heq⟩ | ⟨-, heq⟩⟩ <;> rw [heq] at h
  · exact absurd (eq_of_abort h hsame) (hhalt attach.handle)
  · exact (hknown l).error halt z h hsame
  · exact hnew.error halt z h hsame

end

/-! ## Refused Begins and Ends -/

section

variable {s : Session} {r : Recorder κ} {z : Session × Recorder κ} {halt : Halt}

theorem unchanged_of_emit_transition {p : Performative} {state : State} (hstate : state ≠ .mapped)
    (h : (emit p >>= fun _ => transition state) (s, r) = .error halt z) :
    z.1 = s ∧ z.2.frames = r.frames := by
  rcases emit_cases p s r with ⟨halt', carrier, hemit⟩ | ⟨carrier, hemit⟩
  · rw [bind_of_error hemit] at h
    cases h
    exact ⟨rfl, rfl⟩
  · rw [bind_of_ok hemit, transition_eq hstate] at h
    cases h

theorem unchanged_of_begin {wait : Patience} (h : begin wait (s, r) = .error halt z) :
    z.1 = s ∧ z.2.frames = r.frames := by
  unfold begin at h
  rw [current_bind] at h
  dsimp only at h
  split_ifs at h
  · cases h
    exact ⟨rfl, rfl⟩
  · cases h
    exact ⟨rfl, rfl⟩
  · cases h
    exact ⟨rfl, rfl⟩
  · exact unchanged_of_emit_transition (p := .begin s.toBegin) (by decide) h

theorem unchanged_of_finish {error : Option ErrorInfo} (h : finish error (s, r) = .error halt z) :
    z.1 = s ∧ z.2.frames = r.frames := by
  unfold finish at h
  rw [current_bind] at h
  split_ifs at h
  · exact unchanged_of_emit_transition (by decide) h
  · exact unchanged_of_emit_transition (by decide) h
  · cases h

end

/-! ## All operations -/

/-- A call that fails though no frame has been refused, a delivery that is not sent, and an attach
of the peer that is refused on a handle of its own leave session and carrier as they are; a delivery
on a link may use up a tag.  A Begin or an End that fails leaves the session as it is and is not
sent, also if the carrier has refused it. -/
theorem unchanged_of_refused (s : Session) (r : Recorder (Monitor κ)) :
    (∀ (call : Call) halt y, call.perform (s, r) = .error halt y → refusals y = refusals (s, r) →
      y.2 = r ∧ (y.1 = s ∨ ∃ now name payload settled,
        call = .send now name payload settled ∧ SpendsTag name s y.1)) ∧
    (∀ transfer outcome y, sendDelivery transfer (s, r) = .ok outcome y → outcome.declines →
      y = (s, r)) ∧
    (∀ now name payload settled outcome y,
      send now name payload settled (s, r) = .ok outcome y → outcome.declines →
      y.2 = r ∧ SpendsTag name s y.1) ∧
    (∀ remoteChannel attach halt y,
      dispatch remoteChannel (.attach attach) (s, r) = .error halt y →
      refusals y = refusals (s, r) → (∀ handle, halt ≠ .fault (.handleInUse handle)) →
      y = (s, r)) ∧
    (∀ wait halt y, begin wait (s, r) = .error halt y → y.1 = s ∧ y.2.frames = r.frames) ∧
    (∀ error halt y, finish error (s, r) = .error halt y → y.1 = s ∧ y.2.frames = r.frames) :=
  ⟨fun call => (refuses_perform call).error,
    fun transfer => (refuses_sendDelivery transfer).ok,
    fun now name payload settled => (refuses_send now name payload settled).ok,
    fun _ _ _ _ => eq_of_onAttach, fun _ _ _ => unchanged_of_begin,
    fun _ _ _ => unchanged_of_finish⟩

/-- The peer grants credit on a link, but has no room for a transfer. -/
def withoutRoom : List (Event Outbox) :=
  [.dispatch 5 (.begin { peerBegin with incomingWindow := 0 }),
    .dispatch 5 (.attach { name := "theirs", handle := 8, role := .receiver }),
    .dispatch 5 (.flow { handle := some 8, deliveryCount := some 0, linkCredit := some 1 })]

/-- A delivery for which there is no room uses up a tag and is not sent. -/
example :
    let x := run withoutRoom plainOrigin.start
    let y := stateAfter (send 0 "theirs" [1] false x)
    y.2.frames.length = x.2.frames.length ∧
      (y.1.links.get? "theirs").map (Link.sender? · |>.map (·.nextTag)) = some (some 1) := by
  decide +kernel

end Session

end Amqp
