import Amqp.Proofs.Session.HandleBounds
import Amqp.Proofs.Session.Terms

/-!
# Begins that come late

A session waits for one Begin of the peer.  One that comes later emits nothing, moves the session
to no other state and leaves its links alone, but the session learns what the Begin says
(`dispatch_begin_of_met`): the peer's next transfer id, both of its windows, and a bound of handles.
So it has no effect exactly if it says what the session knows already (`learnBegin_eq_self_iff`),
and Begins of this kind can be left out of a run (`run_heeded`).  The next flow of the peer takes
the place of all that another one has said (`lowered_onFlow`), except for the bound of handles,
which stays lowered in every run that follows (`handleMax_run_begin`).
-/

namespace Amqp.Session

variable {κ : Type} {s : Session} {v : Begin}

/-- Whether a session has had the Begin of the peer, or has gone on without it. -/
def HasMet (s : Session) : Prop := s.state ≠ .beginSent ∧ s.state ≠ .unmapped

instance (s : Session) : Decidable s.HasMet := inferInstanceAs (Decidable (_ ∧ _))

/-! ## What a Begin says -/

/-- Whether a Begin of the peer says what a session knows already. -/
def Knows (v : Begin) (s : Session) : Prop :=
  s.handleMax ≤ v.handleMax ∧ s.nextIncomingId = some v.nextOutgoingId ∧
    s.remoteIncomingWindow = v.incomingWindow.toNat ∧
    s.remoteOutgoingWindow = v.outgoingWindow.toNat

instance (v : Begin) (s : Session) : Decidable (s.Knows v) :=
  inferInstanceAs (Decidable (_ ∧ _ ∧ _ ∧ _))

theorem min_eq_iff_le {a b : UInt32} : min a b = a ↔ a ≤ b := by
  rw [Std.min_eq_if]
  split_ifs with hle
  · exact iff_of_true rfl hle
  · exact iff_of_false (fun h => hle (h ▸ UInt32.le_refl b)) hle

/-- A session that knows what a Begin says, and no other one, is as before when it has learned
it. -/
theorem learnBegin_eq_self_iff : s.learnBegin v = s ↔ s.Knows v := by
  constructor
  · intro h
    exact ⟨min_eq_iff_le.1 (congrArg handleMax h), (congrArg nextIncomingId h).symm,
      (congrArg remoteIncomingWindow h).symm, (congrArg remoteOutgoingWindow h).symm⟩
  · rintro ⟨hbound, hnext, hincoming, houtgoing⟩
    unfold learnBegin
    rw [min_eq_iff_le.2 hbound, ← hnext, ← hincoming, ← houtgoing]

/-- The same Begin once more says nothing new. -/
theorem learnBegin_learnBegin (v : Begin) (s : Session) :
    (s.learnBegin v).learnBegin v = s.learnBegin v :=
  learnBegin_eq_self_iff.2 ⟨Std.min_le_right, rfl, rfl, rfl⟩

/-- A session whose bound of handles is lowered. -/
def lower (bound : UInt32) (s : Session) : Session :=
  { s with handleMax := min s.handleMax bound }

/-- What a flow says takes the place of what a Begin has said, but for the bound of handles. -/
theorem learnFlow_learnBegin (v : Begin) (flow : Flow) (s : Session) :
    (s.learnBegin v).learnFlow flow = (s.learnFlow flow).lower v.handleMax := rfl

/-! ## Flows do not read the bound of handles -/

section

variable {α β : Type} {bound : UInt32} {k : κ}

/-- The same result with the bound of handles lowered. -/
def lowered (bound : UInt32) :
    EStateM.Result Halt (Session × κ) α → EStateM.Result Halt (Session × κ) α
  | .ok a (s, k) => .ok a (s.lower bound, k)
  | .error halt (s, k) => .error halt (s.lower bound, k)

theorem lowered_bind {x y : Acting κ α} {f g : α → Acting κ β} {s' : Session}
    (hx : x (s', k) = lowered bound (y (s, k)))
    (hf : ∀ a s k, f a (s.lower bound, k) = lowered bound (g a (s, k))) :
    (x >>= f) (s', k) = lowered bound ((y >>= g) (s, k)) := by
  cases hy : y (s, k) with
  | ok a t =>
    rw [hy] at hx
    rw [Action.bind_of_ok hy, Action.bind_of_ok hx]
    exact hf a t.1 t.2
  | error halt t =>
    rw [hy] at hx
    rw [Action.bind_of_error hy, Action.bind_of_error hx]
    rfl

variable [FrameCarrier κ]

open Acting

theorem lowered_emit (p : Performative) (s : Session) (k : κ) :
    emit p (s.lower bound, k) = lowered bound (emit p (s, k)) := by
  cases hcarry : FrameCarrier.carry s.channel p k with
  | ok _ k' =>
    have hlower : FrameCarrier.carry (s.lower bound).channel p k = .ok () k' := hcarry
    rw [emit_of_ok hcarry, emit_of_ok hlower]
    rfl
  | error halt k' =>
    have hlower : FrameCarrier.carry (s.lower bound).channel p k = .error halt k' := hcarry
    rw [emit_of_error hcarry, emit_of_error hlower]
    rfl

theorem lowered_sendOutput (output : Link.Output) (s : Session) (k : κ) :
    sendOutput output (s.lower bound, k) = lowered bound (sendOutput output (s, k)) := by
  cases output with
  | flow v => exact lowered_emit (.flow (s.toFlow v)) s k
  | attach v => exact lowered_emit (.attach v) s k
  | disposition v => exact lowered_emit (.disposition v) s k
  | detach v => exact lowered_emit (.detach v) s k

theorem lowered_sendOutputs (outputs : List Link.Output) (s : Session) (k : κ) :
    sendOutputs outputs (s.lower bound, k) = lowered bound (sendOutputs outputs (s, k)) := by
  induction outputs generalizing s k with
  | nil => rfl
  | cons output outputs ih =>
    exact lowered_bind (lowered_sendOutput output s k) fun _ s k => ih s k

theorem lowered_commit (change : Session × List Link.Output) (s s' : Session) (k : κ) :
    commit (change.1.lower bound, change.2) (s', k) = lowered bound (commit change (s, k)) :=
  lowered_sendOutputs change.2 change.1 k

theorem lowered_abort (error : ErrorInfo) (f : Fault) (s : Session) (k : κ) :
    abort error f (s.lower bound, k) = lowered bound (abort error f (s, k)) := by
  refine lowered_bind (lowered_emit (.endFrame { error := some error }) s k) fun _ s k => ?_
  exact lowered_bind (lowered_commit (s.enter .discarding) s (s.lower bound) k) fun _ _ _ => rfl

theorem spreadFlow_lower (flow : Flow) (s : Session) :
    (s.lower bound).spreadFlow flow =
      ((s.spreadFlow flow).1.lower bound, (s.spreadFlow flow).2) := by
  have hwindow : (s.lower bound).remoteIncomingWindow = s.remoteIncomingWindow := rfl
  unfold spreadFlow
  rw [hwindow]
  split_ifs <;> rfl

/-- A session that learns the same from a flow but for its bound of handles does the same. -/
theorem lowered_onFlow {flow : Flow} {s s' : Session}
    (hlearn : s'.learnFlow flow = (s.learnFlow flow).lower bound) (k : κ) :
    onFlow flow (s', k) = lowered bound (onFlow flow (s, k)) := by
  unfold onFlow
  rw [update_bind, update_bind, current_bind, current_bind, hlearn]
  generalize s.learnFlow flow = s₁
  have hhandles : (s₁.lower bound).inputHandles = s₁.inputHandles := rfl
  cases flow.handle with
  | none =>
    dsimp only
    rw [spreadFlow_lower]
    exact lowered_commit (s₁.spreadFlow flow) s₁ (s₁.lower bound) k
  | some handle =>
    dsimp only
    rw [hhandles]
    cases s₁.inputHandles.get? handle with
    | none => exact lowered_abort _ _ s₁ k
    | some name =>
      have hlink : (s₁.lower bound).link name = s₁.link name := rfl
      dsimp only
      rw [hlink]
      cases s₁.link name with
      | error f => rfl
      | ok l =>
        exact lowered_commit (s₁.withLink name (l.onFlow flow).1, (l.onFlow flow).2) s₁
          (s₁.lower bound) k

end

/-! ## One Begin -/

section

variable [FrameCarrier κ]

/-- On whatever channel it arrives and whoever carries the frames of the session, a late Begin is
only learned. -/
theorem dispatch_begin_of_met (h : s.HasMet) (remoteChannel : UInt16) (v : Begin) (k : κ) :
    dispatch remoteChannel (.begin v) (s, k) = .ok () (s.learnBegin v, k) :=
  Terms.onBegin_of_met remoteChannel v h.1 h.2 k

theorem after_begin_of_met {x : Session × Recorder κ} (h : x.1.HasMet) (remoteChannel : UInt16)
    (v : Begin) : after x (.dispatch remoteChannel (.begin v)) = (x.1.learnBegin v, x.2) :=
  congrArg stateAfter (dispatch_begin_of_met h remoteChannel v x.2)

end

/-! ## Runs -/

/-- Whether an event is a Begin of the peer that comes late and says nothing new. -/
def Event.isVain (s : Session) : Event κ → Bool
  | .dispatch _ (.begin v) => decide (s.HasMet ∧ s.Knows v)
  | _ => false

theorem Event.eq_begin_of_isVain {ev : Event κ} (h : ev.isVain s = true) :
    ∃ remoteChannel v, ev = .dispatch remoteChannel (.begin v) ∧ s.HasMet ∧ s.Knows v := by
  unfold Event.isVain at h
  split at h
  · rename_i remoteChannel v
    exact ⟨remoteChannel, v, rfl, of_decide_eq_true h⟩
  · cases h

theorem Event.boundAfter_min (ev : Event κ) (bound more : UInt32) :
    ev.boundAfter (min bound more) = min (ev.boundAfter bound) more := by
  unfold Event.boundAfter
  split
  · ac_rfl
  · rfl

variable [FrameCarrier κ]

/-- The events of a run without the late Begins that say nothing new. -/
def heeded : List (Event κ) → Session × Recorder κ → List (Event κ)
  | [], _ => []
  | ev :: evs, x => if ev.isVain x.1 then heeded evs x else ev :: heeded evs (after x ev)

theorem after_of_isVain {x : Session × Recorder κ} {ev : Event κ} (h : ev.isVain x.1 = true) :
    after x ev = x := by
  obtain ⟨remoteChannel, v, rfl, hmet, hknows⟩ := Event.eq_begin_of_isVain h
  rw [after_begin_of_met hmet, learnBegin_eq_self_iff.2 hknows]

/-- Late Begins that say nothing new make no difference to a run. -/
theorem run_heeded (evs : List (Event κ)) (x : Session × Recorder κ) :
    run (heeded evs x) x = run evs x := by
  induction evs generalizing x with
  | nil => rfl
  | cons ev evs ih =>
    rw [heeded]
    split_ifs with hvain
    · have hafter : run (ev :: evs) x = run evs (after x ev) := rfl
      rw [hafter, after_of_isVain hvain]
      exact ih x
    · exact ih (after x ev)

omit [FrameCarrier κ] in
/-- The bound of a run that begins with a lower bound. -/
theorem foldl_boundAfter_min (evs : List (Event κ)) (bound more : UInt32) :
    evs.foldl Event.boundAfter (min bound more) = min (evs.foldl Event.boundAfter bound) more := by
  induction evs generalizing bound with
  | nil => rfl
  | cons ev evs ih => rw [List.foldl_cons, List.foldl_cons, ev.boundAfter_min, ih]

/-- A Begin lowers the bound of handles for good. -/
theorem handleMax_run_begin (evs : List (Event κ)) (x : Session × Recorder κ)
    (remoteChannel : UInt16) (v : Begin) :
    (run (.dispatch remoteChannel (.begin v) :: evs) x).1.handleMax =
      min (run evs x).1.handleMax v.handleMax := by
  rw [handleMax_run, handleMax_run, List.foldl_cons]
  exact foldl_boundAfter_min evs x.1.handleMax v.handleMax

/-- A session that has met the peer takes a Begin on any channel without a fault and without a frame
of its own, but it learns what the Begin says: the peer's transfer id and windows take the place of
those that it knows, and a lower bound of handles takes the place of its own.  Nothing else changes.
The session is as before exactly if it knows all this already, and Begins of this kind make no
difference to any run.  The next flow of the peer undoes what any other one has changed, except for
the bound of handles, which holds in every run from there on. -/
theorem late_begin (h : s.HasMet) (remoteChannel : UInt16) (v : Begin) :
    (∀ k : κ, dispatch remoteChannel (.begin v) (s, k) = .ok () (s.learnBegin v, k)) ∧
      (s.learnBegin v = s ↔ s.Knows v) ∧
      (∀ (evs : List (Event κ)) (r : Recorder κ), run (heeded evs (s, r)) (s, r) = run evs (s, r)) ∧
      (∀ (channel : UInt16) (flow : Flow) (k : κ),
        dispatch channel (.flow flow) (s.learnBegin v, k) =
          lowered v.handleMax (dispatch channel (.flow flow) (s, k))) ∧
      ∀ (evs : List (Event κ)) (r : Recorder κ),
        (run (.dispatch remoteChannel (.begin v) :: evs) (s, r)).1.handleMax =
          min (run evs (s, r)).1.handleMax v.handleMax :=
  ⟨dispatch_begin_of_met h remoteChannel v, learnBegin_eq_self_iff,
    fun evs r => run_heeded evs (s, r),
    fun _ flow k => lowered_onFlow (learnFlow_learnBegin v flow s) k,
    fun evs r => handleMax_run_begin evs (s, r) remoteChannel v⟩

/-- What a session has gone through that has met the peer. -/
def meeting : List (Event Outbox) := [.dispatch 5 (.begin { peerBegin with handleMax := 10 })]

/-- A Begin that comes again, with other values. -/
def changedBegin : Begin where
  nextOutgoingId := 9
  incomingWindow := 1
  outgoingWindow := 2
  handleMax := 3

theorem late_begin_of_changedBegin :
    let x := run meeting plainOrigin.start
    x.1.HasMet ∧
      (∀ k : Outbox, dispatch 7 (.begin changedBegin) (x.1, k) =
        .ok () (x.1.learnBegin changedBegin, k)) ∧
      (after x (.dispatch 7 (.begin changedBegin))).1.remoteIncomingWindow = 1 ∧
      x.1.learnBegin changedBegin ≠ x.1 ∧
      ∀ evs, (run (.dispatch 7 (.begin changedBegin) :: evs) x).1.handleMax =
        min (run evs x).1.handleMax 3 := by
  intro x
  have hmet : x.1.HasMet := by decide +kernel
  have hnew : ¬x.1.Knows changedBegin := by decide +kernel
  obtain ⟨hlearns, hknows, -, -, hbound⟩ := late_begin (κ := Outbox) hmet 7 changedBegin
  exact ⟨hmet, hlearns, by decide +kernel, fun h => hnew (hknows.1 h),
    fun evs => hbound evs x.2⟩

/-- Late Begins do not leave all sessions as they were. -/
theorem not_unchanged_of_changedBegin :
    ¬∀ (o : Origin Outbox) (evs : List (Event Outbox)) (remoteChannel : UInt16) (v : Begin),
      (run evs o.start).1.HasMet →
        (after (run evs o.start) (.dispatch remoteChannel (.begin v))).1 = (run evs o.start).1 := by
  intro hunchanged
  have hmet : (run meeting plainOrigin.start).1.HasMet := by decide +kernel
  have hsame := hunchanged plainOrigin meeting 7 changedBegin hmet
  have hbound : (after (run meeting plainOrigin.start)
      (.dispatch 7 (.begin changedBegin))).1.handleMax ≠
        (run meeting plainOrigin.start).1.handleMax := by decide +kernel
  exact hbound (congrArg handleMax hsame)

end Amqp.Session
