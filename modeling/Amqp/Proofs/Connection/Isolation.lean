import Amqp.Proofs.Connection.Seating
import Amqp.Proofs.Connection.Silence
import Amqp.Proofs.Transport.Writing

/-!
# Isolation of sessions

A frame of a session is addressed to one session at most: the one that the peer's channel leads to,
the one that a Begin names, or a new one on a free channel (`addressed`).  When a connection takes
the frame, or passes over a fault that concerns a session only, no other session is changed in any
way, neither are the ways of the peer to them, nor the state of the connection and what was
negotiated for it; and all that is written are frames on the channel of the session that was
addressed (`Isolates`, `isolates_poll`).
-/

namespace Amqp

/-- Whether an action has stopped short on a fault that concerns a session only. -/
def Halt.IsSessionLocal : Halt → Prop
  | .fault f => f.isSessionLocal = true
  | .stalled => False

namespace Connection

/-! ## Carriers -/

/-- What frames of sessions leave of a carrier that all go out on one channel. -/
structure Carrier.Says (channel : UInt16) (k k' : Carrier) : Prop where
  settings_eq : k'.settings = k.settings
  written_eq : ∃ ps : List Performative, (∀ p ∈ ps, p.isOfSession = true) ∧
    k'.written = k.written ++ Transport.wire (ps.map fun p => (channel, .performative p))

namespace Carrier.Says

variable {channel : UInt16} {k k' k'' : Carrier}

theorem refl (channel : UInt16) (k : Carrier) : Says channel k k :=
  ⟨rfl, [], List.forall_mem_nil _, (List.append_nil _).symm⟩

theorem trans (h : Says channel k k') (h' : Says channel k' k'') : Says channel k k'' := by
  obtain ⟨ps, hps, hwritten⟩ := h.written_eq
  obtain ⟨qs, hqs, hwritten'⟩ := h'.written_eq
  refine ⟨h'.settings_eq.trans h.settings_eq, ps ++ qs, fun p hp => ?_, ?_⟩
  · exact (List.mem_append.1 hp).elim (hps p) (hqs p)
  · rw [hwritten', hwritten, List.append_assoc, List.map_append, Transport.wire, Transport.wire,
      Transport.wire, List.flatMap_append]

end Carrier.Says

/-- A carrier takes a frame of a session, or fails with a fault that does not concern the session
only. -/
theorem Carrier.carry_cases {p : Performative} (hp : p.isOfSession = true) (channel : UInt16)
    (k : Carrier) :
    (∃ k', FrameCarrier.carry channel p k = .ok () k' ∧ Says channel k k') ∨
      ∃ halt k', FrameCarrier.carry channel p k = .error halt k' ∧ ¬halt.IsSessionLocal := by
  cases hcarries : k.state.carriesSessions with
  | false =>
    rw [carry_of_refuses hcarries]
    exact Or.inr ⟨_, k, rfl, nofun⟩
  | true =>
    rw [carry_of_carries hcarries]
    unfold transporting Action.within
    cases hsend : Transport.send channel (.performative p) k.transport with
    | ok _ t =>
      refine Or.inl ⟨_, rfl, rfl, [p], List.forall_mem_singleton.2 hp, ?_⟩
      refine (Transport.written_of_write hsend).trans ?_
      rw [List.map_singleton, Transport.wire, List.flatMap_singleton]
      rfl
    | error halt t =>
      refine Or.inr ⟨halt, _, rfl, ?_⟩
      cases halt with
      | stalled => exact id
      | fault f => exact Bool.eq_false_iff.1 (Transport.isSessionLocal_of_write hsend)

/-- The terms of a session that only speaks on its own channel. -/
def Carrier.saying (channel : UInt16) (k : Carrier) : Session.Terms Carrier where
  kept seat k' := seat.channel = channel ∧ Says channel k k'
  stopped halt seat k' := halt.IsSessionLocal → seat.channel = channel ∧ Says channel k k'
  raises _ := True

theorem Carrier.hold_saying (channel : UInt16) (k : Carrier) : (saying channel k).Hold where
  carry {seat k' p} hp hkept := by
    rcases carry_cases hp seat.channel k' with ⟨k'', hcarry, hsays⟩ | ⟨halt, k'', hcarry, hhalt⟩
    · exact Or.inl ⟨k'', hcarry, hkept.1, hkept.2.trans (hkept.1 ▸ hsays)⟩
    · exact Or.inr ⟨halt, k'', hcarry, fun hlocal => absurd hlocal hhalt⟩
  raise _ hkept _ := hkept
  isSessionLocal _ := trivial

/-- Whatever frame of the peer a session takes, it only speaks on its own channel. -/
theorem meets_saying_dispatch {p : Performative} (hp : p.isOfSession = true)
    (remoteChannel : UInt16) (s : Session) (k : Carrier) :
    (Carrier.saying s.channel k).Meets (Session.dispatch remoteChannel p (s, k)) := by
  have hold := Carrier.hold_saying s.channel k
  have henters (state : Session.State) : (Carrier.saying s.channel k).Enters state := id
  have hkept : (Carrier.saying s.channel k).kept s.seat k := ⟨rfl, .refl s.channel k⟩
  cases p with
  | openFrame v | close v => cases hp
  | begin v =>
    by_cases h : s.state = .beginSent ∨ s.state = .unmapped
    · exact Session.Terms.meets_onBegin hold henters v h hkept
    · obtain ⟨hsent, hunmapped⟩ := not_or.1 h
      change (Carrier.saying s.channel k).Meets (Session.onBegin remoteChannel v (s, k))
      rw [Session.Terms.onBegin_of_met remoteChannel v hsent hunmapped]
      exact hkept
  | endFrame v => exact Session.Terms.governs_onEnd hold (henters _) (henters _) k hkept
  | attach v =>
    exact Session.Terms.governs_onAttach hold (henters _) (fun _ _ _ _ => trivial) k hkept
  | transfer v =>
    exact Session.Terms.governs_onTransfer hold (henters _) (fun _ _ _ _ _ _ => trivial) k hkept
  | flow v => exact Session.Terms.governs_onFlow hold v (henters _) k hkept
  | disposition v => exact Session.Terms.governs_onDisposition hold v k hkept
  | detach v => exact Session.Terms.governs_onDetach hold v (henters _) k hkept

/-! ## Connections -/

variable {c c' : Connection} {channel : UInt16}

/-- What was configured and negotiated for a connection, and its state. -/
def agreement (c : Connection) :
    (State × UInt32 × UInt32) × Settings × String × (UInt16 → String) × Option String × UInt16 :=
  (c.carrier.settings, c.settings, c.containerId, c.sessionName, c.remoteContainerId,
    c.remoteChannelMax)

/-- The channel of the session that a frame of the peer is addressed to. -/
def addressed (channel : UInt16) (p : Performative) (c : Connection) : Option UInt16 :=
  match p with
  | .begin v =>
    match v.remoteChannel with
    | some known => some known
    | none => c.freeChannel.toOption
  | _ => c.incomingChannels.get? channel

/-- What is left of a connection when only the session on one of its channels, if any, has taken
part in what has happened on a channel of the peer. -/
structure Isolates (channel : UInt16) (target : Option UInt16) (c c' : Connection) : Prop where
  sessions : ∀ other, target ≠ some other → c'.sessions.get? other = c.sessions.get? other
  ways : ∀ way other, way ≠ channel → target ≠ some other →
    (c'.incomingChannels.get? way = some other ↔ c.incomingChannels.get? way = some other)
  agreement_eq : c'.agreement = c.agreement
  written_eq : ∃ frames : List (UInt16 × Performative),
    (∀ x ∈ frames, target = some x.1 ∧ x.2.isOfSession = true) ∧
      c'.carrier.written =
        c.carrier.written ++ Transport.wire (frames.map fun x => (x.1, .performative x.2))

theorem Isolates.refl (channel : UInt16) (target : Option UInt16) (c : Connection) :
    Isolates channel target c c :=
  ⟨fun _ _ => rfl, fun _ _ _ _ => Iff.rfl, rfl, [], List.forall_mem_nil _,
    (List.append_nil _).symm⟩

/-- Whether a condition holds of what a result leaves, unless it is a fault that ends the
connection. -/
def Outlives (I : Connection → Prop) : EStateM.Result Halt Connection Unit → Prop
  | .ok _ c => I c
  | .error halt c => halt.IsSessionLocal → I c

theorem Outlives.mono {I J : Connection → Prop} {r : EStateM.Result Halt Connection Unit}
    (h : Outlives I r) (hIJ : ∀ c, I c → J c) : Outlives J r := by
  cases r with
  | ok _ c => exact hIJ c h
  | error halt c => exact fun hlocal => hIJ c (h hlocal)

theorem Outlives.guarded {I : Connection → Prop} {x : Action Connection Unit}
    (hx : Outlives I (x c)) (h : guarded Fault.isSessionLocal x c = .ok () c') : I c' := by
  rcases guarded_eq_ok h with hresult | ⟨f, hresult, hlocal⟩
  · rw [hresult] at hx
    exact hx
  · rw [hresult] at hx
    exact hx hlocal

/-- A session that has spoken on its channel leaves the others alone. -/
theorem Isolates.of_speech {known : UInt16} {k : Carrier} (h : Carrier.Says known c.carrier k) :
    Isolates channel (some known) c { c with carrier := k } := by
  obtain ⟨ps, hps, hwritten⟩ := h.written_eq
  refine ⟨fun _ _ => rfl, fun _ _ _ _ => Iff.rfl, ?_, ps.map fun p => (known, p),
    fun x hx => ?_, ?_⟩
  · exact congrArg (·, c.settings, c.containerId, c.sessionName, c.remoteContainerId,
      c.remoteChannelMax) h.settings_eq
  · obtain ⟨p, hp, rfl⟩ := List.mem_map.1 hx
    exact ⟨rfl, hps p hp⟩
  · rw [List.map_map]
    exact hwritten

theorem Isolates.insert {known : UInt16} (h : Isolates channel (some known) c c') (s : Session) :
    Isolates channel (some known) c { c' with sessions := c'.sessions.insert known s } := by
  refine ⟨fun other hother => ?_, h.ways, h.agreement_eq, h.written_eq⟩
  rw [← h.sessions other hother]
  exact (Table.get?_insert _ _ _ _).trans (if_neg fun heq => hother (congrArg some heq.symm))

/-- A way from the channel itself is nothing that concerns the others. -/
theorem Isolates.of_way {target : Option UInt16} {known : UInt16}
    (h : Isolates channel target
      { c with incomingChannels := c.incomingChannels.insert channel known } c') :
    Isolates channel target c c' := by
  refine ⟨h.sessions, fun way other hway hother => (h.ways way other hway hother).trans ?_,
    h.agreement_eq, h.written_eq⟩
  rw [Table.get?_insert, if_neg hway]

theorem outlives_onSession (channel : UInt16) {known : UInt16} {s : Session}
    {x : Session.Acting Carrier Unit} (hs : c.sessions.get? known = some s)
    (hx : (Carrier.saying known c.carrier).Meets (x (s, c.carrier))) :
    Outlives (Isolates channel (some known) c) (onSession known x c) := by
  unfold onSession
  rw [hs]
  dsimp only
  cases hresult : x (s, c.carrier) with
  | ok _ y =>
    rw [hresult] at hx
    exact (Isolates.of_speech hx.2).insert y.1
  | error halt y =>
    rw [hresult] at hx
    exact fun hlocal => (Isolates.of_speech (hx hlocal).2).insert y.1

/-- A session that is dropped is the one that was addressed. -/
theorem Isolates.dropUnmapped {known : UInt16} (h : Isolates channel (some known) c c') :
    Isolates channel (some known) c (c'.dropUnmapped known) := by
  unfold Connection.dropUnmapped
  split
  · refine ⟨fun other hother => ?_, fun way other hway hother => ?_, h.agreement_eq, h.written_eq⟩
    · rw [← h.sessions other hother]
      exact (Table.get?_erase _ _ _).trans (if_neg fun h => hother (congrArg some h.symm))
    · rw [← h.ways way other hway hother]
      have hfilter : (c'.release known).incomingChannels.get? way =
          (c'.incomingChannels.get? way).filter fun ours => ours ≠ known :=
        Table.get?_filter _ _ _
      rw [hfilter, Option.filter_eq_some_iff]
      have hne : other ≠ known := fun heq => hother (congrArg some heq.symm)
      simp [hne]
  · exact h

theorem outlives_onSessionFrame {p : Performative} (hc : c.Seated) (hp : p.isOfSession = true) :
    Outlives (Isolates channel (c.incomingChannels.get? channel) c)
      (onSessionFrame channel p c) := by
  cases hchannel : c.incomingChannels.get? channel with
  | none =>
    rw [onSessionFrame_of_unknown p fun known h => by cases hchannel.symm.trans h]
    exact fun _ => .refl _ _ c
  | some known =>
    cases hs : c.sessions.get? known with
    | none =>
      have habsent (known' : UInt16) (h : c.incomingChannels.get? channel = some known') :
          c.sessions.contains known' = false := by
        cases hchannel.symm.trans h
        exact Table.contains_of_get?_eq_none hs
      rw [onSessionFrame_of_unknown p habsent]
      exact fun _ => .refl _ _ c
    | some s =>
      have hmeets := meets_saying_dispatch hp channel s c.carrier
      rw [hc known s hs] at hmeets
      have hsession := outlives_onSession channel hs hmeets
      rw [onSessionFrame_of_known p hchannel (Table.contains_of_get? hs)]
      unfold dropping
      cases hresult : onSession known (Session.dispatch channel p) c with
      | ok _ d =>
        rw [hresult] at hsession
        exact hsession.dropUnmapped
      | error halt d =>
        rw [hresult] at hsession
        exact fun hlocal => (hsession hlocal).dropUnmapped

theorem outlives_onBegin {v : Begin} (hc : c.Seated) :
    Outlives (Isolates channel (c.addressed channel (.begin v)) c) (onBegin channel v c) := by
  unfold addressed
  dsimp only
  cases hremote : v.remoteChannel with
  | some known =>
    cases hs : c.sessions.get? known with
    | none =>
      rw [onBegin_of_unknown hremote (Table.contains_of_get?_eq_none hs)]
      exact fun _ => .refl _ _ c
    | some s =>
      have hmeets := meets_saying_dispatch (p := .begin v) rfl channel s c.carrier
      rw [hc known s hs] at hmeets
      have hsession := outlives_onSession channel
        (c := { c with incomingChannels := c.incomingChannels.insert channel known }) hs hmeets
      rw [onBegin_of_known hremote (Table.contains_of_get? hs)]
      exact hsession.mono fun _ => Isolates.of_way
  | none =>
    cases hfree : c.freeChannel with
    | error f =>
      rw [onBegin_of_full hremote hfree]
      exact fun _ => .refl _ _ c
    | ok fresh =>
      have hmeets := meets_saying_dispatch (p := .begin v) rfl channel
        (Session.create (c.sessionName fresh) fresh c.settings.session c.settings.link) c.carrier
      rw [onBegin_of_fresh hremote hfree]
      change (Carrier.saying fresh c.carrier).Meets (Session.onBegin channel v _) at hmeets
      generalize (Session.onBegin channel v : Session.Acting Carrier Unit) _ = begun at hmeets ⊢
      cases begun with
      | ok _ y =>
        exact ((Isolates.of_speech
          (c := { c with incomingChannels := c.incomingChannels.insert channel fresh })
          hmeets.2).insert y.1).of_way
      | error halt y => exact fun hlocal => .of_speech (hmeets hlocal).2

theorem outlives_dispatch (channel : UInt16) {p : Performative} (hc : c.Seated)
    (hp : p.isOfSession = true) :
    Outlives (Isolates channel (c.addressed channel p) c) (dispatch channel p c) := by
  cases p with
  | openFrame v | close v => cases hp
  | begin v => exact outlives_onBegin hc
  | _ => exact outlives_onSessionFrame hc rfl

/-- What is received changes neither the sessions nor what is written. -/
theorem Isolates.of_received {target : Option UInt16} {t : Transport}
    (ht : t.writingSide = c.carrier.transport.writingSide)
    (h : Isolates channel target { c with carrier := { c.carrier with transport := t } } c') :
    Isolates channel target c c' := by
  obtain ⟨frames, hframes, hwritten⟩ := h.written_eq
  refine ⟨h.sessions, h.ways, h.agreement_eq, frames, hframes, hwritten.trans ?_⟩
  exact congrArg (fun side : Bool × List WriteEvent × List Bytes =>
    side.2.2.reverse.flatten ++ _) ht

/-- A frame of a session that does not end the connection concerns no session but the one that it is
addressed to, and no part of the connection that all sessions share.  If it starts a session, that
session has a channel on which there was none. -/
theorem isolates_poll (hc : c.Seated) {wait : Option Nat} {p : Performative}
    (hp : p.isOfSession = true) (hreceived : c.received wait = some (channel, p))
    (hpoll : poll wait c = .ok () c') :
    Isolates channel (c.addressed channel p) c c' ∧
      ∀ v fresh, p = .begin v → v.remoteChannel = none → c.addressed channel p = some fresh →
        c.sessions.get? fresh = none := by
  refine ⟨?_, ?_⟩
  · obtain ⟨t, ht, htaken⟩ := poll_of_received hreceived
    rw [htaken] at hpoll
    have hdispatch := outlives_dispatch channel
      (c := { c with carrier := { c.carrier with transport := t } }) hc hp
    exact (hdispatch.guarded hpoll).of_received ht
  · rintro v fresh rfl hremote haddressed
    unfold addressed at haddressed
    simp only [hremote] at haddressed
    cases hfree : c.freeChannel with
    | error f =>
      rw [hfree] at haddressed
      cases haddressed
    | ok channel =>
      rw [hfree] at haddressed
      cases haddressed
      exact get?_freeChannel hfree

/-- A connection on which the peer has begun two sessions, on its channels 5 and 6, with frames on
the way. -/
def withTwoSessions (frames : List (UInt16 × Frame)) : Connection :=
  run [.openUp .unlimited, .poll (some 100), .poll (some 100)]
    (overFrames ((6, peerBegin none) :: frames))

/-- A transfer on a handle that is not attached makes the second session send End, and ends it.  The
first one stays mapped. -/
theorem isolates_poll_of_unattached :
    let c := withTwoSessions [(6, .performative (.transfer { handle := 9 }))]
    ∃ p c', p.isOfSession = true ∧ c.received (some 100) = some (6, p) ∧
      poll (some 100) c = .ok () c' ∧ c.addressed 6 p = some 1 ∧
      c'.sessions.values.map Session.state = [.mapped, .discarding] ∧
      Isolates 6 (some 1) c c' := by
  intro c
  have hreceived : (c.received (some 100)).map
      (fun x => (x.1, x.2.isOfSession, c.addressed x.1 x.2)) = some (6, true, some 1) := by
    decide +kernel
  have htaken : (exit? (poll (some 100) c)).map
      (fun x => (x.1.isNone, x.2.sessions.values.map Session.state)) =
        some (true, [.mapped, .discarding]) := by
    decide +kernel
  obtain ⟨⟨channel, p⟩, hreceived, hframe⟩ := Option.map_eq_some_iff.1 hreceived
  obtain ⟨⟨o, c'⟩, htaken, houtcome⟩ := Option.map_eq_some_iff.1 htaken
  obtain ⟨rfl, hp, haddressed⟩ : channel = 6 ∧ p.isOfSession = true ∧
      c.addressed channel p = some 1 := by
    simpa using hframe
  obtain ⟨rfl, hstates⟩ : o = none ∧
      c'.sessions.values.map Session.state = [.mapped, .discarding] := by
    simpa using houtcome
  have hpoll := eq_ok_of_exit? htaken
  have hseated : c.Seated := stable_seated.run (seated_create _ _ _ _) _
  have hisolates := (isolates_poll hseated hp hreceived hpoll).1
  rw [haddressed] at hisolates
  exact ⟨p, c', hp, hreceived, hpoll, haddressed, hstates, hisolates⟩

end Connection

end Amqp
