import Amqp.Proofs.Session.Ending
import Amqp.Proofs.Session.Settling

/-!
# The begin handshake

A session gets mapped in two ways: it sends a Begin and the peer answers it, or the peer sends a
Begin and the session answers.  In between its carrier may refuse a frame, and then the handshake
stops where it is.

`Hears` says what becomes of a session upon the peer's Begin, and `Advance` what any event does for
the handshake.  `Memory` is what the past of a session says about it: how many frames had gone out
when it last left the unmapped state, and the channel of the Begin that mapped it.  A session agrees
with its memory in every run (`Agrees.run`).
-/

namespace Amqp.Session

open Acting

/-! ## What moves leave alone -/

section

variable {s s' : Session} {ps : List Performative}

theorem Move.published_eq (h : Move s ps s') (hs : s.published = s.state) :
    s'.published = s'.state := by
  cases h with
  | turn => rfl
  | remove name =>
    unfold Session.remove
    split <;> exact hs
  | _ => exact hs

theorem Moves.published_eq (h : Moves s ps s') (hs : s.published = s.state) :
    s'.published = s'.state := by
  induction h with
  | refl => exact hs
  | tail _ hmove ih => exact hmove.published_eq ih

theorem Move.nextIncomingId_eq (h : Move s ps s') : s'.nextIncomingId = s.nextIncomingId := by
  cases h with
  | remove name =>
    unfold Session.remove
    split <;> rfl
  | _ => rfl

theorem Moves.nextIncomingId_eq (h : Moves s ps s') : s'.nextIncomingId = s.nextIncomingId := by
  induction h with
  | refl => rfl
  | tail _ hmove ih => exact hmove.nextIncomingId_eq.trans ih

theorem Turn.state_of_beginSent {state state' : State} (h : Turn state ps state')
    (hps : ∀ p ∈ ps, isBegin p = false) (hsent : state' = .beginSent) : state = .beginSent := by
  cases h with
  | begin v => simp [isBegin] at hps
  | finish error => split at hsent <;> cases hsent
  | _ => cases hsent

/-- Without a Begin no session gets to wait for an answer. -/
theorem Moves.state_of_beginSent (h : Moves s ps s') (hps : ∀ p ∈ ps, isBegin p = false)
    (hsent : s'.state = .beginSent) : s.state = .beginSent := by
  induction h with
  | refl => exact hsent
  | tail _ hmove ih =>
    obtain ⟨hpast, hlast⟩ := List.forall_mem_append.1 hps
    apply ih hpast
    cases hmove with
    | turn hturn => exact hturn.state_of_beginSent hlast hsent
    | remove name =>
      unfold Session.remove at hsent
      split at hsent <;> exact hsent
    | _ => exact hsent

end

/-! ## Begins -/

/-- How many Begins there are among frames. -/
def begins (frames : List (UInt16 × Performative)) : Nat := frames.countP (isBegin ·.2)

theorem begins_append (xs ys : List (UInt16 × Performative)) :
    begins (xs ++ ys) = begins xs + begins ys := List.countP_append

theorem begins_eq_zero (channel : UInt16) {ps : List Performative}
    (h : ∀ p ∈ ps, isBegin p = false) : begins (ps.map (channel, ·)) = 0 := by
  unfold begins
  rw [List.countP_eq_zero]
  intro f hf
  obtain ⟨p, hp, rfl⟩ := List.mem_map.1 hf
  simp [h p hp]

theorem begins_cons_begin (channel : UInt16) (b : Begin) {ps : List Performative}
    (h : ∀ p ∈ ps, isBegin p = false) : begins ((.begin b :: ps).map (channel, ·)) = 1 := by
  have hps := begins_eq_zero channel h
  unfold begins at hps ⊢
  rw [List.map_cons, List.countP_cons_of_pos rfl, hps]

theorem isBegin_of_links {ps : List Performative} (h : Talk.links.Holds ps) :
    ∀ p ∈ ps, isBegin p = false := by
  intro p hp
  have hlink := h p hp
  cases p <;> first | rfl | exact absurd hlink id

/-- Only an opening makes a session send a Begin. -/
theorem isBegin_of_talk {κ : Type} {s : Session} {ev : Event κ} {ps : List Performative}
    (hev : ev.isOpening = false) (h : (ev.talk s).Holds ps) : ∀ p ∈ ps, isBegin p = false := by
  rcases Event.holds_talk_cases h with h | ⟨hopening, -⟩ | (rfl | ⟨v, rfl⟩) |
    ⟨-, rfl | ⟨t, qs, rfl, -, us, rfl, -⟩⟩
  · exact isBegin_of_links h
  · rw [hev] at hopening
    cases hopening
  · simp
  · simp [isBegin]
  · simp
  · simp [isBegin]

/-! ## Getting mapped -/

/-- The frames with which the links of a session attach once it is mapped. -/
def attaches (s : Session) : List Performative :=
  (s.enter .mapped).2.map (s.enter .mapped).1.frameOf

/-- Whether a frame is an attach. -/
def isAttach : Performative → Bool
  | .attach _ => true
  | _ => false

theorem isAttach_of_mem_attaches {s : Session} {p : Performative} (h : p ∈ s.attaches) :
    isAttach p = true := by
  have hend (e : Link.Endpoint) : ∀ output ∈ (e.followSession .mapped).2,
      ∃ a, output = .attach a := by
    intro output houtput
    unfold Link.Endpoint.followSession at houtput
    dsimp only at houtput
    split_ifs at houtput
    · exact ⟨e.toAttach, List.mem_singleton.1 houtput⟩
    · cases houtput
  obtain ⟨output, houtput, rfl⟩ := List.mem_map.1 h
  obtain ⟨l, -, hl⟩ := List.mem_flatMap.1 houtput
  have hattach : ∃ a, output = .attach a := by
    cases l with
    | sender v => exact hend v.endpoint output hl
    | receiver v => exact hend v.endpoint output hl
  obtain ⟨a, rfl⟩ := hattach
  rfl

theorem isBegin_of_isAttach {ps : List Performative} (h : ∀ p ∈ ps, isAttach p = true) :
    ∀ p ∈ ps, isBegin p = false := by
  intro p hp
  have hattach := h p hp
  cases p with
  | attach a => rfl
  | _ => cases hattach

/-- A session that has heard the peer's Begin on one of the peer's channels. -/
def heard (remoteChannel : UInt16) (v : Begin) (s : Session) : Session :=
  { s.learnBegin v with remoteChannel := some remoteChannel }

/-- A session that has still to answer the Begin it has heard. -/
def asked (remoteChannel : UInt16) (v : Begin) (s : Session) : Session :=
  ((s.heard remoteChannel v).enter .beginReceived).1

/-- What becomes of a session upon the peer's Begin, with the frames that go out.  The links attach
one after another, until the carrier refuses a frame. -/
inductive Hears (remoteChannel : UInt16) (v : Begin) (s : Session) :
    List Performative → Session → Prop
  | meet {qs : List Performative} (hstate : s.state = .beginSent)
      (hqs : qs <+: (s.heard remoteChannel v).attaches) :
      Hears remoteChannel v s qs ((s.heard remoteChannel v).enter .mapped).1
  | wait (hstate : s.state = .unmapped) :
      Hears remoteChannel v s [] (s.asked remoteChannel v)
  | answer {qs : List Performative} (hstate : s.state = .unmapped)
      (hqs : qs <+: (s.asked remoteChannel v).attaches) :
      Hears remoteChannel v s (.begin (s.asked remoteChannel v).toBegin :: qs)
        ((s.asked remoteChannel v).enter .mapped).1
  | ignore (hsent : s.state ≠ .beginSent) (hunmapped : s.state ≠ .unmapped) :
      Hears remoteChannel v s [] (s.learnBegin v)

section

variable {κ : Type} [FrameCarrier κ]

/-- The frames for outputs of links go out in order, until the carrier refuses one. -/
theorem stateAfter_sendOutputs (outputs : List Link.Output) (s : Session) (r : Recorder κ) :
    ∃ carrier qs, qs <+: outputs.map s.frameOf ∧ stateAfter (sendOutputs outputs (s, r)) =
      (s, { carrier, frames := r.frames ++ qs.map (s.channel, ·) }) := by
  induction outputs generalizing r with
  | nil => exact ⟨r.carrier, [], List.nil_prefix, by simp [stateAfter, sendOutputs, pure]; rfl⟩
  | cons output outputs ih =>
    have hone : sendOutput output (s, r) = emit (s.frameOf output) (s, r) := by
      cases output <;> rfl
    unfold sendOutputs
    rcases emit_cases (s.frameOf output) s r with ⟨halt, carrier, hemit⟩ | ⟨carrier, hemit⟩
    · rw [Action.bind_of_error (hone.trans hemit)]
      exact ⟨carrier, [], List.nil_prefix, by simp [stateAfter]⟩
    · rw [Action.bind_of_ok (hone.trans hemit)]
      obtain ⟨carrier', qs, hqs, hafter⟩ :=
        ih { carrier, frames := r.frames ++ [(s.channel, s.frameOf output)] }
      refine ⟨carrier', s.frameOf output :: qs, ?_, ?_⟩
      · exact List.prefix_cons_inj _ |>.2 hqs
      · rw [hafter, List.append_assoc]
        rfl

theorem stateAfter_map (s : Session) (r : Recorder κ) :
    ∃ carrier qs, qs <+: s.attaches ∧ stateAfter (transition .mapped (s, r)) =
      ((s.enter .mapped).1, { carrier, frames := r.frames ++ qs.map (s.channel, ·) }) :=
  stateAfter_sendOutputs (s.enter .mapped).2 (s.enter .mapped).1 r

/-- A call to begin is refused, or a Begin goes out and the session waits for the answer. -/
theorem stateAfter_begin (wait : Patience) (s : Session) (r : Recorder κ) :
    (∃ carrier, stateAfter (begin wait (s, r)) = (s, { r with carrier })) ∨
      s.state = .unmapped ∧ ∃ carrier, stateAfter (begin wait (s, r)) =
        ((s.enter .beginSent).1,
          { carrier, frames := r.frames ++ [(s.channel, .begin s.toBegin)] }) := by
  unfold begin
  rw [current_bind]
  by_cases hpipelined : (!wait.waits && !s.allowPipelinedOpen) = true
  · rw [if_pos hpipelined]
    exact Or.inl ⟨r.carrier, rfl⟩
  rw [if_neg hpipelined]
  by_cases hstate : s.state ≠ .unmapped
  · rw [if_pos hstate]
    exact Or.inl ⟨r.carrier, rfl⟩
  rw [if_neg hstate]
  rcases emit_cases (.begin s.toBegin) s r with ⟨halt, carrier, hemit⟩ | ⟨carrier, hemit⟩
  · have hopening : (emit (.begin s.toBegin) >>= fun _ => transition .beginSent) (s, r) =
        .error halt (s, { r with carrier }) := Action.bind_of_error hemit
    exact Or.inl ⟨carrier, congrArg stateAfter hopening⟩
  · have hopening := Action.bind_of_ok (f := fun _ => transition .beginSent) hemit
    rw [transition_eq (by decide)] at hopening
    exact Or.inr ⟨not_not.1 hstate, carrier, congrArg stateAfter hopening⟩

/-- The peer's Begin is heard, and a session that has not begun only fails to answer it if the
carrier refuses the answer. -/
theorem stateAfter_onBegin (remoteChannel : UInt16) (v : Begin) (s : Session) (r : Recorder κ) :
    ∃ carrier ps s', Hears remoteChannel v s ps s' ∧
      stateAfter (onBegin remoteChannel v (s, r)) =
        (s', { carrier, frames := r.frames ++ ps.map (s.channel, ·) }) ∧
      (s'.state = .beginReceived → s.state = .unmapped → ∃ halt, FrameCarrier.carry s.channel
        (.begin (s.asked remoteChannel v).toBegin) r.carrier = .error halt carrier) := by
  unfold onBegin
  rw [update_bind, current_bind]
  have hsame : (s.learnBegin v).state = s.state := rfl
  rw [hsame]
  cases hstate : s.state with
  | beginSent =>
    obtain ⟨carrier, qs, hqs, hafter⟩ := stateAfter_map (s.heard remoteChannel v) r
    exact ⟨carrier, qs, _, .meet hstate hqs, hafter, nofun⟩
  | unmapped =>
    have hheard : (transition .beginReceived >>= fun _ => sendBegin >>= fun _ =>
        transition .mapped : Acting (Recorder κ) Unit) (s.heard remoteChannel v, r) =
        (emit (.begin (s.asked remoteChannel v).toBegin) >>= fun _ => transition .mapped)
          (s.asked remoteChannel v, r) :=
      Action.bind_of_ok (transition_eq (by decide) _ r)
    dsimp only
    rw [update_bind]
    show ∃ carrier ps s', _ ∧ stateAfter ((transition .beginReceived >>= fun _ => sendBegin >>=
      fun _ => transition .mapped : Acting (Recorder κ) Unit) (s.heard remoteChannel v, r)) = _ ∧ _
    rw [hheard]
    cases hcarry : FrameCarrier.carry (s.asked remoteChannel v).channel
        (.begin (s.asked remoteChannel v).toBegin) r.carrier with
    | error halt carrier =>
      rw [Action.bind_of_error (emit_of_refuses hcarry)]
      exact ⟨carrier, [], _, .wait hstate, by simp [stateAfter], fun _ _ => ⟨halt, hcarry⟩⟩
    | ok _ carrier =>
      rw [Action.bind_of_ok (emit_of_accepts hcarry)]
      obtain ⟨carrier', qs, hqs, hafter⟩ := stateAfter_map (κ := κ) (s.asked remoteChannel v) _
      refine ⟨carrier', _, _, .answer hstate hqs, ?_, nofun⟩
      rw [hafter, List.append_assoc]
      rfl
  | _ =>
    exact ⟨r.carrier, [], _, .ignore (by simp [hstate]) (by simp [hstate]),
      by simp [stateAfter, pure]; rfl, nofun⟩

/-! ## Events -/

omit [FrameCarrier κ] in
theorem Event.published_prepare (ev : Event κ) (s : Session) :
    (ev.prepare s).published = s.published := by
  rcases ev.prepare_cases s with h | ⟨name, l, handle, -, -, h⟩ | ⟨v, h⟩ | ⟨v, h⟩ | h <;>
    exact (congrArg Session.published h).trans rfl

omit [FrameCarrier κ] in
theorem Event.nextIncomingId_prepare (ev : Event κ) {s : Session}
    (hs : s.nextIncomingId.isSome = true) : (ev.prepare s).nextIncomingId.isSome = true := by
  rcases ev.prepare_cases s with h | ⟨name, l, handle, -, -, h⟩ | ⟨v, h⟩ | ⟨v, h⟩ | h <;> rw [h]
  · exact hs
  · exact hs
  all_goals rfl

/-- Watchers see every state that a session gets to. -/
theorem published_after {x : Session × Recorder κ} (ev : Event κ)
    (h : x.1.published = x.1.state) : (after x ev).1.published = (after x ev).1.state := by
  obtain ⟨ps, hmoves, -⟩ := ran_perform ev x.1 x.2
  apply hmoves.published_eq
  rw [Event.published_prepare, Event.state_prepare, h]

theorem nextIncomingId_after {x : Session × Recorder κ} (ev : Event κ)
    (h : x.1.nextIncomingId.isSome = true) : (after x ev).1.nextIncomingId.isSome = true := by
  obtain ⟨ps, hmoves, -⟩ := ran_perform ev x.1 x.2
  show (stateAfter (ev.perform (x.1, x.2))).1.nextIncomingId.isSome = true
  rw [hmoves.nextIncomingId_eq]
  exact ev.nextIncomingId_prepare h

/-- Only the peer's Begin gives a session another seat or maps it. -/
theorem settles_after {x : Session × Recorder κ} {ev : Event κ}
    (hev : ∀ remoteChannel v, ev ≠ .dispatch remoteChannel (.begin v)) :
    x.1.Settles (after x ev).1 := by
  have hleaves {α : Type} {r : EStateM.Result Halt (Session × Recorder κ) α}
      (h : Action.Leaves (fun y => x.1.Settles y.1) r) : x.1.Settles (stateAfter r).1 := by
    cases r <;> exact h
  have hself : x.1.Settles x.1 := ⟨rfl, rfl, id⟩
  cases ev with
  | begin wait => exact hleaves (settles_perform (.begin wait) x.2)
  | finish error => exact hleaves (settles_perform (.finish error) x.2)
  | addSender unique target settings =>
    exact hleaves (settles_perform (.addSender unique target settings) x.2)
  | addReceiver unique source settings =>
    exact hleaves (settles_perform (.addReceiver unique source settings) x.2)
  | attach name => exact hleaves (settles_perform (.attach name) x.2)
  | detach name close error => exact hleaves (settles_perform (.detach name close error) x.2)
  | send now name payload settled =>
    exact hleaves (settles_perform (.send now name payload settled) x.2)
  | sendDelivery transfer => exact hleaves (settles_perform (.sendDelivery transfer) x.2)
  | sendFlow flow => exact hleaves (settles_perform (.sendFlow flow) x.2)
  | grantCredit name credit => exact hleaves (settles_perform (.grantCredit name credit) x.2)
  | settle name deliveryId state =>
    exact hleaves (settles_perform (.settle name deliveryId state) x.2)
  | receive name => exact hleaves (settles_perform (.receive name) x.2)
  | collectOutcome name deliveryId =>
    exact hleaves (settles_perform (.collectOutcome name deliveryId) x.2)
  | evaluate now => exact settles_evaluate now x.1
  | followConnection connection => exact settles_followConnection connection x.1
  | changeCarrier change => exact hself
  | dispatch remoteChannel p =>
    cases p with
    | begin v => exact absurd rfl (hev remoteChannel v)
    | endFrame v => exact hleaves (settles_onEnd x.2)
    | openFrame v | close v => exact hself
    | attach v => exact hleaves (settles_linkFrame remoteChannel (p := .attach v) rfl x.2)
    | flow v => exact hleaves (settles_linkFrame remoteChannel (p := .flow v) rfl x.2)
    | transfer v => exact hleaves (settles_linkFrame remoteChannel (p := .transfer v) rfl x.2)
    | disposition v =>
      exact hleaves (settles_linkFrame remoteChannel (p := .disposition v) rfl x.2)
    | detach v => exact hleaves (settles_linkFrame remoteChannel (p := .detach v) rfl x.2)

/-- What an event does for the handshake, with the frames that go out in it. -/
structure Advance (x : Session × Recorder κ) (ev : Event κ) (y : Session × Recorder κ)
    (sent : List (UInt16 × Performative)) : Prop where
  frames_eq : y.2.frames = x.2.frames ++ sent
  begins_cases : begins sent = 0 ∧ (IsLive y.1.state → IsLive x.1.state) ∨
    begins sent = 1 ∧ x.1.state = .unmapped ∧ y.1.publications ≠ x.1.publications
  mapped_cases : y.1.state = .mapped →
    (x.1.state = .mapped ∧ y.1.remoteChannel = x.1.remoteChannel) ∨
      ∃ remoteChannel v, ev = .dispatch remoteChannel (.begin v) ∧ x.1.state ≠ .mapped ∧
        y.1.remoteChannel = some remoteChannel ∧ y.1.nextIncomingId.isSome = true

/-- An event that is no opening keeps the seat and sends no Begin. -/
theorem advance_of_not_isOpening {x : Session × Recorder κ} {ev : Event κ}
    (hev : ev.isOpening = false) : ∃ sent, Advance x ev (after x ev) sent := by
  obtain ⟨ps, hmoves, hframes, htalk, -⟩ := ran_perform ev x.1 x.2
  have hnone := isBegin_of_talk hev htalk
  have hsettles : x.1.Settles (after x ev).1 := by
    apply settles_after
    rintro remoteChannel v rfl
    cases hev
  refine ⟨_, hframes, Or.inl ⟨begins_eq_zero _ hnone, ?_⟩, fun hmapped => Or.inl ?_⟩
  · rintro (hsent | hmapped)
    · have hbefore := hmoves.state_of_beginSent hnone hsent
      rw [Event.state_prepare] at hbefore
      exact Or.inl hbefore
    · exact Or.inr (hsettles.mapped hmapped)
  · exact ⟨hsettles.mapped hmapped, hsettles.remoteChannel_eq⟩

theorem advance_begin (x : Session × Recorder κ) (wait : Patience) :
    ∃ sent, Advance x (.begin wait) (after x (.begin wait)) sent := by
  rcases stateAfter_begin wait x.1 x.2 with ⟨carrier, hafter⟩ | ⟨hstate, carrier, hafter⟩
  · refine ⟨[], ?_⟩
    show Advance x _ (stateAfter (begin wait (x.1, x.2))) _
    rw [hafter]
    exact ⟨(List.append_nil _).symm, Or.inl ⟨rfl, id⟩, fun hmapped => Or.inl ⟨hmapped, rfl⟩⟩
  · refine ⟨[(x.1.channel, .begin x.1.toBegin)], ?_⟩
    show Advance x _ (stateAfter (begin wait (x.1, x.2))) _
    rw [hafter]
    exact ⟨rfl, Or.inr ⟨rfl, hstate, by simp [enter]⟩, nofun⟩

theorem advance_onBegin (x : Session × Recorder κ) (remoteChannel : UInt16) (v : Begin) :
    ∃ sent, Advance x (.dispatch remoteChannel (.begin v))
      (after x (.dispatch remoteChannel (.begin v))) sent := by
  obtain ⟨carrier, ps, s', hhears, hafter, -⟩ := stateAfter_onBegin remoteChannel v x.1 x.2
  refine ⟨ps.map (x.1.channel, ·), ?_⟩
  show Advance x _ (stateAfter (onBegin remoteChannel v (x.1, x.2))) _
  rw [hafter]
  refine ⟨rfl, ?_, fun hmapped => ?_⟩
  · cases hhears with
    | meet hstate hqs =>
      have hnone := isBegin_of_isAttach fun q hq => isAttach_of_mem_attaches (hqs.subset hq)
      exact Or.inl ⟨begins_eq_zero _ hnone, fun _ => Or.inl hstate⟩
    | wait hstate => exact Or.inl ⟨rfl, by simp [IsLive, asked, enter]⟩
    | answer hstate hqs =>
      have hnone := isBegin_of_isAttach fun q hq => isAttach_of_mem_attaches (hqs.subset hq)
      have hpublications : ((asked remoteChannel v x.1).enter .mapped).1.publications =
          x.1.publications + 2 := rfl
      exact Or.inr ⟨begins_cons_begin _ _ hnone, hstate, by dsimp only; omega⟩
    | ignore => exact Or.inl ⟨rfl, id⟩
  · cases hhears with
    | meet hstate => exact Or.inr ⟨remoteChannel, v, rfl, by simp [hstate], rfl, rfl⟩
    | wait => cases hmapped
    | answer hstate => exact Or.inr ⟨remoteChannel, v, rfl, by simp [hstate], rfl, rfl⟩
    | ignore => exact Or.inl ⟨hmapped, rfl⟩

theorem exists_advance (x : Session × Recorder κ) (ev : Event κ) :
    ∃ sent, Advance x ev (after x ev) sent := by
  by_cases hev : ev.isOpening = false
  · exact advance_of_not_isOpening hev
  · cases ev with
    | begin wait => exact advance_begin x wait
    | dispatch remoteChannel p =>
      cases p with
      | begin v => exact advance_onBegin x remoteChannel v
      | _ => exact absurd rfl hev
    | _ => exact absurd rfl hev

/-! ## Memories -/

/-- What is remembered of a session: how many frames had gone out when it last left the unmapped
state, and on which of the peer's channels the Begin came that mapped it last. -/
structure Memory where
  departure : Nat := 0
  meeting : Option UInt16 := none

/-- The channel of the peer on which an event brings a Begin. -/
def Event.beginChannel? : Event κ → Option UInt16
  | .dispatch remoteChannel (.begin _) => some remoteChannel
  | _ => none

/-- What is remembered after an event.  A session that is unmapped leaves this state if watchers
hear of any other. -/
def Memory.next (m : Memory) (x : Session × Recorder κ) (ev : Event κ) : Memory where
  departure :=
    if x.1.state = .unmapped ∧ (after x ev).1.publications ≠ x.1.publications then
      x.2.frames.length
    else m.departure
  meeting :=
    if x.1.state ≠ .mapped ∧ (after x ev).1.state = .mapped then ev.beginChannel? else m.meeting

/-- What is remembered after events in a row. -/
def memoryAfter : List (Event κ) → Session × Recorder κ → Memory → Memory
  | [], _, m => m
  | ev :: evs, x, m => memoryAfter evs (after x ev) (m.next x ev)

/-- How many Begins have gone out since the session last left the unmapped state. -/
def beginsSince (m : Memory) (x : Session × Recorder κ) : Nat :=
  begins (x.2.frames.drop m.departure)

/-- Whether a session is what its memory says. -/
structure Agrees (m : Memory) (x : Session × Recorder κ) : Prop where
  published_eq : x.1.published = x.1.state
  departure_le : m.departure ≤ x.2.frames.length
  begins_le : beginsSince m x ≤ 1
  begins_eq : IsLive x.1.state → beginsSince m x = 1
  meeting_eq : x.1.state = .mapped → x.1.remoteChannel = m.meeting ∧ m.meeting.isSome = true
  incoming : x.1.state = .mapped → x.1.nextIncomingId.isSome = true

namespace Agrees

variable {m : Memory} {x : Session × Recorder κ}

/-- A Begin goes out only when the session leaves the unmapped state, and nobody else gets it live.
-/
theorem beginsSince_next (h : Agrees m x) (ev : Event κ) :
    beginsSince (m.next x ev) (after x ev) ≤ 1 ∧
      (IsLive (after x ev).1.state → beginsSince (m.next x ev) (after x ev) = 1) := by
  obtain ⟨sent, hframes, hbegins, -⟩ := exists_advance x ev
  unfold beginsSince Memory.next
  rw [hframes]
  dsimp only
  split_ifs with hleft
  · rw [List.drop_left]
    rcases hbegins with ⟨hnone, hlive⟩ | ⟨hone, -, -⟩
    · refine ⟨by omega, fun hafter => ?_⟩
      have hbefore := hlive hafter
      rw [hleft.1] at hbefore
      simp [IsLive] at hbefore
    · exact ⟨by omega, fun _ => hone⟩
  · rcases hbegins with ⟨hnone, hlive⟩ | ⟨-, hunmapped, hpublished⟩
    · rw [List.drop_append_of_le_length h.departure_le, begins_append, hnone]
      exact ⟨h.begins_le, fun hafter => h.begins_eq (hlive hafter)⟩
    · exact absurd ⟨hunmapped, hpublished⟩ hleft

theorem meeting_next (h : Agrees m x) (ev : Event κ) (hmapped : (after x ev).1.state = .mapped) :
    (after x ev).1.remoteChannel = (m.next x ev).meeting ∧
      (m.next x ev).meeting.isSome = true ∧ (after x ev).1.nextIncomingId.isSome = true := by
  obtain ⟨sent, -, -, hcases⟩ := exists_advance x ev
  unfold Memory.next
  dsimp only
  rcases hcases hmapped with ⟨hbefore, hsame⟩ | ⟨remoteChannel, v, rfl, hbefore, hchannel, hnext⟩
  · rw [if_neg (by simp [hbefore]), hsame]
    exact ⟨(h.meeting_eq hbefore).1, (h.meeting_eq hbefore).2,
      nextIncomingId_after ev (h.incoming hbefore)⟩
  · rw [if_pos ⟨hbefore, hmapped⟩]
    exact ⟨hchannel, rfl, hnext⟩

theorem after (h : Agrees m x) (ev : Event κ) : Agrees (m.next x ev) (after x ev) where
  published_eq := published_after ev h.published_eq
  departure_le := by
    obtain ⟨sent, hframes, -⟩ := exists_advance x ev
    have hle := h.departure_le
    unfold Memory.next
    rw [hframes, List.length_append]
    dsimp only
    split_ifs <;> omega
  begins_le := (h.beginsSince_next ev).1
  begins_eq := (h.beginsSince_next ev).2
  meeting_eq hmapped := ⟨(h.meeting_next ev hmapped).1, (h.meeting_next ev hmapped).2.1⟩
  incoming hmapped := (h.meeting_next ev hmapped).2.2

theorem run (h : Agrees m x) (evs : List (Event κ)) :
    Agrees (memoryAfter evs x m) (run evs x) := by
  induction evs generalizing x m with
  | nil => exact h
  | cons ev evs ih => exact ih (h.after ev)

end Agrees

omit [FrameCarrier κ] in
theorem agrees_start (o : Origin κ) : Agrees {} o.start where
  published_eq := rfl
  departure_le := Nat.le_refl 0
  begins_le := Nat.zero_le 1
  begins_eq := by simp [IsLive, Origin.start, create]
  meeting_eq := nofun
  incoming := nofun

/-! ## Runs -/

/-- Whether an unmapped session has answered the peer's Begin on one of the peer's channels.  The
answer goes out before the links attach.  If the carrier refuses it, the session is left with the
Begin that it has received. -/
def Answers (remoteChannel : UInt16) (v : Begin) (x y : Session × Recorder κ) : Prop :=
  ∃ answer : Begin, answer.remoteChannel = some remoteChannel ∧
    ((∃ halt carrier,
        FrameCarrier.carry x.1.channel (.begin answer) x.2.carrier = .error halt carrier) ∧
      y.2.frames = x.2.frames ∧ y.1.state = .beginReceived ∨
    ∃ qs, qs <+: (x.1.asked remoteChannel v).attaches ∧ (∀ q ∈ qs, isAttach q = true) ∧
      y.2.frames = x.2.frames ++ (.begin answer :: qs).map (x.1.channel, ·) ∧
      y.1.state = .mapped)

theorem answers_after (x : Session × Recorder κ) (remoteChannel : UInt16) (v : Begin)
    (hstate : x.1.state = .unmapped) :
    Answers remoteChannel v x (after x (.dispatch remoteChannel (.begin v))) := by
  obtain ⟨carrier, ps, s', hhears, hafter, hrefused⟩ := stateAfter_onBegin remoteChannel v x.1 x.2
  show Answers remoteChannel v x (stateAfter (onBegin remoteChannel v (x.1, x.2)))
  rw [hafter]
  refine ⟨(x.1.asked remoteChannel v).toBegin, rfl, ?_⟩
  cases hhears with
  | meet hsent =>
    rw [hstate] at hsent
    cases hsent
  | wait =>
    obtain ⟨halt, hcarry⟩ := hrefused rfl hstate
    exact Or.inl ⟨⟨halt, carrier, hcarry⟩, List.append_nil _, rfl⟩
  | answer _ hqs =>
    exact Or.inr ⟨_, hqs, fun q hq => isAttach_of_mem_attaches (hqs.subset hq), rfl, rfl⟩
  | ignore _ hunmapped => exact absurd hstate hunmapped

/-- A session gets mapped by a Begin of the peer: by the answer to its own, or by one that it has
received and answered. -/
theorem mapped_cases (x : Session × Recorder κ) (ev : Event κ) (hbefore : x.1.state ≠ .mapped)
    (hmapped : (after x ev).1.state = .mapped) :
    ∃ remoteChannel v, ev = .dispatch remoteChannel (.begin v) ∧
      (x.1.state = .beginSent ∨ x.1.state = .unmapped ∧
        (after x ev).1 = ((x.1.asked remoteChannel v).enter .mapped).1) := by
  obtain ⟨sent, -, -, hcases⟩ := exists_advance x ev
  obtain ⟨hmapped', -⟩ | ⟨remoteChannel, v, rfl, -⟩ := hcases hmapped
  · exact absurd hmapped' hbefore
  refine ⟨remoteChannel, v, rfl, ?_⟩
  obtain ⟨carrier, ps, s', hhears, hafter, -⟩ := stateAfter_onBegin remoteChannel v x.1 x.2
  have hsession : (after x (.dispatch remoteChannel (.begin v))).1 = s' := congrArg Prod.fst hafter
  rw [hsession] at hmapped ⊢
  cases hhears with
  | meet hsent => exact Or.inl hsent
  | wait => cases hmapped
  | answer hunmapped => exact Or.inr ⟨hunmapped, rfl⟩
  | ignore => exact absurd hmapped hbefore

/-- In every run watchers see the state of the session.  Since it last left the unmapped state it
has sent at most one Begin, and one if it waits for the answer or is mapped.  Once it is mapped it
knows the channel of the Begin that mapped it and the peer's next transfer id.  It only gets mapped
by a Begin of the peer, either as the answer to its own or when it answers it by itself, and the
answer names the peer's channel and goes out before the links attach. -/
theorem handshake_of_run (o : Origin κ) (evs : List (Event κ)) :
    let x := run evs o.start
    let m := memoryAfter evs o.start {}
    x.1.published = x.1.state ∧
    beginsSince m x ≤ 1 ∧
    (x.1.state = .beginSent ∨ x.1.state = .mapped → beginsSince m x = 1) ∧
    (x.1.state = .mapped → x.1.remoteChannel = m.meeting ∧ m.meeting.isSome = true ∧
      x.1.nextIncomingId.isSome = true) ∧
    (∀ ev, x.1.state ≠ .mapped → (after x ev).1.state = .mapped →
      ∃ remoteChannel v, ev = .dispatch remoteChannel (.begin v) ∧
        (x.1.state = .beginSent ∨ x.1.state = .unmapped ∧
          (after x ev).1 = ((x.1.asked remoteChannel v).enter .mapped).1)) ∧
    (∀ remoteChannel v, x.1.state = .unmapped →
      Answers remoteChannel v x (after x (.dispatch remoteChannel (.begin v)))) := by
  intro x m
  have h : Agrees m x := (agrees_start o).run evs
  refine ⟨h.published_eq, h.begins_le, h.begins_eq, fun hmapped => ?_, mapped_cases x,
    answers_after x⟩
  exact ⟨(h.meeting_eq hmapped).1, (h.meeting_eq hmapped).2, h.incoming hmapped⟩

end

end Amqp.Session
