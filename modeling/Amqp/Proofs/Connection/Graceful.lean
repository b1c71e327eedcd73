import Amqp.Proofs.Connection.Ended
import Amqp.Proofs.Connection.Polls

/-!
# Closing with frames on the way

The peer may have put frames on the wire before it has seen our Close.  The connection takes them,
but refuses what its sessions answer.  So a close that waits for the peer's Close comes to its end
exactly if the connection would have taken all these frames in silence (`Unanswered`); one frame
that makes a session answer, or an outstanding Open, turns it into an error
(`close_reached_or_error`).
-/

namespace Amqp.Connection

variable {c c' : Connection}

/-- Whether a connection takes frames one after another in silence. -/
def Unanswered : List (UInt16 × Frame) → Connection → Prop
  | [], _ => True
  | x :: frames, c => ∃ c', Silent (take x.1 x.2) c c' ∧ Unanswered frames c'

theorem unanswered_cons_iff {x : UInt16 × Frame} {frames : List (UInt16 × Frame)}
    (h : Silent (take x.1 x.2) c c') : Unanswered (x :: frames) c ↔ Unanswered frames c' := by
  refine ⟨fun ⟨d, hd, hrest⟩ => ?_, fun hrest => ⟨c', h, hrest⟩⟩
  cases hd.1.symm.trans h.1
  exact hrest

deriving instance DecidableEq for Stream, Transport, Carrier

instance decidableUnanswered :
    ∀ (frames : List (UInt16 × Frame)) (c : Connection), Decidable (Unanswered frames c)
  | [], _ => .isTrue trivial
  | x :: frames, c =>
    match htake : take x.1 x.2 c with
    | .error _ _ => .isFalse fun ⟨_, hd, _⟩ => by cases htake.symm.trans hd.1
    | .ok _ c' =>
      if hcarrier : c'.carrier = c.carrier then
        @decidable_of_iff _ (Unanswered frames c')
          (unanswered_cons_iff (x := x) ⟨htake, hcarrier⟩).symm (decidableUnanswered frames c')
      else
        .isFalse fun ⟨_, hd, _⟩ =>
          hcarrier ((EStateM.Result.ok.inj (htake.symm.trans hd.1)).2 ▸ hd.2)

/-! ## Polls -/

theorem poll_of_nothing {wait : Option Nat}
    (h : transporting (Transport.receive wait) c = .ok none c') : poll wait c = .ok () c' := by
  unfold poll
  rw [h]

theorem poll_of_frame {wait : Option Nat} {x : UInt16 × Frame}
    (h : transporting (Transport.receive wait) c = .ok (some (Transport.arrival x)) c') :
    poll wait c = take x.1 x.2 c' := by
  obtain ⟨channel, frame⟩ := x
  unfold poll
  rw [h]
  cases frame <;> rfl

/-- The peer's Close ends a connection that has sent its own. -/
theorem take_close_of_closeSent (channel : UInt16) (v : Close) (h : c.state = .closeSent) :
    take channel (.performative (.close v)) c = .ok () c.terminate := by
  refine guarded_of_ok ?_
  change onClose c = _
  unfold onClose
  rw [Action.get_bind, h]
  rfl

/-- Polls until the connection has ended. -/
def pollToEnd (fuel : Nat) : Action Connection WaitResult :=
  pollUntil (fun c => c.state = .ended) none fuel

theorem pollToEnd_of_ended (h : c.state = .ended) (fuel : Nat) :
    pollToEnd (fuel + 1) c = .ok .reached c := by
  unfold pollToEnd pollUntil
  rw [Action.get_bind]
  simp only [h]
  rfl

theorem pollToEnd_succ (h : c.state ≠ .ended) (fuel : Nat) :
    pollToEnd (fuel + 1) c = (poll (some c.idleWait) >>= fun _ => pollToEnd fuel) c := by
  unfold pollToEnd
  rw [pollUntil, Action.get_bind]
  simp only [h]
  rfl

theorem pollToEnd_of_ok (h : c.state ≠ .ended) (hpoll : poll (some c.idleWait) c = .ok () c')
    (fuel : Nat) : pollToEnd (fuel + 1) c = pollToEnd fuel c' := by
  rw [pollToEnd_succ h, Action.bind_of_ok hpoll]

theorem pollToEnd_of_error {halt : Halt} (h : c.state ≠ .ended)
    (hpoll : poll (some c.idleWait) c = .error halt c') (fuel : Nat) :
    pollToEnd (fuel + 1) c = .error halt c' := by
  rw [pollToEnd_succ h, Action.bind_of_error hpoll]

/-! ## Waiting for the peer's Close -/

/-- A carrier that has sent Close, in place of the one of a live connection, with frames and then
the peer's Close before it. -/
structure Closing (frames : List (UInt16 × Frame)) (c : Connection) (k : Carrier) : Prop where
  accepts : c.carrier.Accepts
  state_eq : k.state = .closeSent
  size_eq : FrameCarrier.maxFrameSize k = FrameCarrier.maxFrameSize c.carrier
  isClose_eq : ∀ x ∈ frames, isClose x.2 = false
  awaits : ∃ channel v,
    k.transport.Awaits (frames ++ [(channel, .performative (.close v))])
  latest_le : k.transport.latest ≤ k.transport.stream.horizon

theorem Closing.refuses {frames : List (UInt16 × Frame)} {k : Carrier} (h : Closing frames c k) :
    k.Refuses := Carrier.refuses_of_state_eq h.state_eq rfl

/-- Of the live connection only the carrier matters, which silent frames leave as it is. -/
theorem Closing.of_carrier_eq {frames : List (UInt16 × Frame)} {k : Carrier}
    (h : Closing frames c k) (hcarrier : c'.carrier = c.carrier) : Closing frames c' k where
  accepts := hcarrier ▸ h.accepts
  state_eq := h.state_eq
  size_eq := h.size_eq.trans (congrArg FrameCarrier.maxFrameSize hcarrier).symm
  isClose_eq := h.isClose_eq
  awaits := h.awaits
  latest_le := h.latest_le

/-- A poll of a closing connection has nothing, but less time or fewer events are left then; or it
has the first of the frames, or the peer's Close behind them. -/
theorem Closing.receive {frames : List (UInt16 × Frame)} {k : Carrier} (h : Closing frames c k) :
    ∃ got t, transporting (Transport.receive (some c.idleWait)) { c with carrier := k } =
        .ok got { c with carrier := { k with transport := t } } ∧
      t.occasions ≤ k.transport.occasions ∧
      ((got = none ∧ t.occasions < k.transport.occasions ∧
          Closing frames c { k with transport := t }) ∨
        (∃ x later, got = some (Transport.arrival x) ∧ frames = x :: later ∧
          Closing later c { k with transport := t }) ∨
        ∃ channel v, got = some (Transport.arrival (channel, .performative (.close v))) ∧
          frames = []) := by
  obtain ⟨channel, v, hawaits⟩ := h.awaits
  have hne : frames ++ [(channel, Frame.performative (.close v))] ≠ [] := by simp
  rcases hawaits.step { wait := some c.idleWait } with
    ⟨got, done, later, t, hreceive, hsplit, hgot, hstep⟩ | ⟨t, -, -, hlate⟩
  · have hreceive : Transport.receive (some c.idleWait) k.transport = .ok got t := hreceive
    obtain ⟨hle, hless⟩ := Transport.wearsOut_receive c.idleWait_pos hreceive
    refine ⟨got, t, transporting_of_ok (c := { c with carrier := k }) hreceive, hle, ?_⟩
    have hlatest : t.latest ≤ t.stream.horizon := by
      rw [hstep.horizon]
      exact Nat.le_trans (hstep.latest_le (hsplit ▸ hne)) h.latest_le
    cases got with
    | none =>
      obtain rfl : done = [] := List.map_eq_nil_iff.1 hgot.symm
      refine Or.inl ⟨rfl, hless rfl, h.accepts, h.state_eq, h.size_eq, h.isClose_eq,
        ⟨channel, v, ?_⟩, hlatest⟩
      rw [hsplit]
      exact hstep.awaits
    | some got =>
      obtain ⟨x, rfl, hx⟩ : ∃ x, done = [x] ∧ Transport.arrival x = got :=
        List.map_eq_singleton_iff.1 hgot.symm
      cases frames with
      | nil =>
        obtain ⟨rfl, -⟩ := List.cons.inj hsplit
        exact Or.inr (Or.inr ⟨channel, v, congrArg some hx.symm, rfl⟩)
      | cons y frames =>
        obtain ⟨rfl, rfl⟩ := List.cons.inj hsplit
        exact Or.inr (Or.inl ⟨y, frames, congrArg some hx.symm, rfl, h.accepts, h.state_eq,
          h.size_eq, (List.forall_mem_cons.1 h.isClose_eq).2, ⟨channel, v, hstep.awaits⟩, hlatest⟩)
  · have hbound := hlate hne
    exact absurd (Nat.lt_of_lt_of_le hbound h.latest_le) (Nat.lt_irrefl _)

/-- Whether a result is the end of the connection if a condition holds, and an error otherwise. -/
def Decides (p : Prop) (r : EStateM.Result Halt Connection WaitResult) : Prop :=
  (p ∧ ∃ c', r = .ok .reached c' ∧ c'.state = .ended) ∨ (¬p ∧ ∃ halt c', r = .error halt c')

/-- The fuel lasts, since each poll takes a frame or wears the transport out. -/
theorem decides_pollToEnd {fuel : Nat} {frames : List (UInt16 × Frame)} {k : Carrier}
    (h : Closing frames c k) (hfuel : frames.length + k.transport.occasions + 1 < fuel) :
    Decides (Unanswered frames c) (pollToEnd fuel { c with carrier := k }) := by
  -- Frames and occasions together bound the polls; the last poll finds the connection ended.
  induction fuel generalizing c k frames with
  | zero => exact absurd hfuel (Nat.not_lt_zero _)
  | succ fuel ih =>
    have hlive : (state { c with carrier := k }) ≠ .ended := by
      change k.state ≠ .ended
      rw [h.state_eq]
      decide
    obtain ⟨got, t, hreceive, hle, ⟨rfl, hless, hclosing⟩ | ⟨x, later, rfl, rfl, hclosing⟩ |
      ⟨channel, v, rfl, rfl⟩⟩ := h.receive
    · rw [pollToEnd_of_ok hlive (poll_of_nothing hreceive)]
      refine ih hclosing ?_
      change frames.length + t.occasions + 1 < fuel
      omega
    · have hpoll := poll_of_frame hreceive
      rcases splits_take x.1 (h.isClose_eq x (List.mem_cons_self ..)) h.accepts hclosing.refuses
        h.size_eq with ⟨c', hsilent, htake⟩ | ⟨hloud, halt, c', htake⟩
      · rw [pollToEnd_of_ok hlive (hpoll.trans htake)]
        unfold Decides
        rw [unanswered_cons_iff hsilent]
        refine ih (hclosing.of_carrier_eq hsilent.2) ?_
        rw [List.length_cons] at hfuel
        change later.length + t.occasions + 1 < fuel
        omega
      · exact Or.inr ⟨fun ⟨d, hd, _⟩ => hloud d hd, halt, c',
          pollToEnd_of_error hlive (hpoll.trans htake) fuel⟩
    · have htake := take_close_of_closeSent channel v
        (c := { c with carrier := { k with transport := t } }) h.state_eq
      rw [pollToEnd_of_ok hlive ((poll_of_frame hreceive).trans htake)]
      obtain ⟨fuel, rfl⟩ : ∃ n, fuel = n + 1 := ⟨fuel - 1, by omega⟩
      exact Or.inl ⟨trivial, _, pollToEnd_of_ended (state_terminate _) fuel, state_terminate _⟩

/-! ## The number of polls -/

/-- Every frame has octets. -/
theorem length_le_length_wire (frames : List (UInt16 × Frame)) :
    frames.length ≤ (Transport.wire frames).length := by
  induction frames with
  | nil => exact Nat.zero_le _
  | cons x frames ih =>
    have hlength := Frame.length_encode x.1 x.2
    have hwire : Transport.wire (x :: frames) = x.2.encode x.1 ++ Transport.wire frames := rfl
    rw [hwire, List.length_append, List.length_cons]
    rw [frameHeaderSize] at hlength
    omega

/-! ## Closing -/

theorem followConnection_closeSent (s : Session) : s.followConnection .closeSent = s := by
  unfold Session.followConnection
  exact if_neg fun h => h.1.elim nofun nofun

/-- The sessions stay as they are when the Close is sent. -/
theorem enter_closeSent (hstate : c.state ≠ .closeSent) :
    c.enter .closeSent = { c with carrier := { c.carrier with state := .closeSent } } := by
  unfold enter
  rw [if_neg hstate, Table.mapValues_eq_self followConnection_closeSent]

/-- A carrier whose transport has just taken the Close. -/
def Carrier.afterClose (writes : List WriteEvent) (taken : List Bytes) (k : Carrier) : Carrier :=
  { k with
    transport := { k.transport with stream := { k.transport.stream with writes, taken } }
    state := .closeSent }

/-- A stream that takes everything takes the Close. -/
theorem close_eq_awaitEnd (error : Option ErrorInfo)
    (hstate : c.state = .openSent ∨ c.state = .opened)
    (hwriting : c.carrier.transport.IsWriting) :
    ∃ writes taken, close error .unlimited c =
      awaitEnd .unlimited { c with carrier := c.carrier.afterClose writes taken } := by
  obtain ⟨writes, taken, hwrite, -, -⟩ :=
    Transport.write_eq hwriting ((Frame.performative (.close { error })).encode 0)
  refine ⟨writes, taken, ?_⟩
  have hsend : send (.close { error }) c = .ok ()
      { c with carrier := { c.carrier.afterClose writes taken with state := c.state } } :=
    transporting_of_ok hwrite
  have hlive : c.state ≠ .closeSent := by
    rcases hstate with hstate | hstate <;> rw [hstate] <;> decide
  exact (close_of_sent (State.sendsClose_of_live hstate) hsend).trans
    (congrArg (awaitEnd .unlimited) (enter_closeSent (c := { c with carrier :=
      { c.carrier.afterClose writes taken with state := c.state } }) hlive))

theorem closing_afterClose {frames : List (UInt16 × Frame)} {channel : UInt16} {v : Close}
    (hstate : c.state = .openSent ∨ c.state = .opened)
    (hwriting : c.carrier.transport.IsWriting) (hframes : ∀ x ∈ frames, isClose x.2 = false)
    (hawaits : c.carrier.transport.Awaits (frames ++ [(channel, .performative (.close v))]))
    (hhorizon : c.carrier.transport.latest ≤ c.carrier.transport.stream.horizon)
    (writes : List WriteEvent) (taken : List Bytes) :
    Closing frames c (c.carrier.afterClose writes taken) where
  accepts := ⟨Carrier.carriesSessions_of_live hstate, hwriting⟩
  state_eq := rfl
  size_eq := rfl
  isClose_eq := hframes
  awaits := ⟨channel, v,
    ⟨hawaits.isReceiving.isOpen, hawaits.isReceiving.isConnected, hawaits.isReceiving.soft⟩,
    hawaits.incoming_eq, hawaits.decodable, hawaits.fits⟩
  latest_le := hhorizon

/-- There are enough polls for all frames and all occasions to have none. -/
theorem Closing.lt_pollBound {frames : List (UInt16 × Frame)} {k : Carrier}
    (h : Closing frames c k) :
    frames.length + k.transport.occasions + 1 < pollBound { c with carrier := k } := by
  obtain ⟨channel, v, hawaits⟩ := h.awaits
  have hpolls := length_le_length_wire (frames ++ [(channel, .performative (.close v))])
  rw [← hawaits.incoming_eq, List.length_append, List.length_singleton] at hpolls
  rw [pollBound_eq]
  dsimp only
  omega

theorem decides_awaitEnd {p : Prop} (h : Decides p (pollToEnd c.pollBound c)) :
    Decides p (awaitEnd .unlimited c) := by
  have hawait : await .unlimited (fun c => c.state = .ended) c = pollToEnd c.pollBound c :=
    Action.get_bind _ _
  unfold awaitEnd
  rw [hawait]
  rcases h with ⟨hp, c', hreached, hended⟩ | ⟨hp, halt, c', herror⟩
  · rw [hreached]
    exact Or.inl ⟨hp, c', rfl, hended⟩
  · rw [herror]
    cases halt <;> exact Or.inr ⟨hp, _, _, rfl⟩

/-- A close that waits without limit reaches the end of the connection if all frames before the
peer's Close would have been taken in silence, and is an error otherwise. -/
theorem close_reached_or_error {frames : List (UInt16 × Frame)} {channel : UInt16} {v : Close}
    (error : Option ErrorInfo) (hstate : c.state = .openSent ∨ c.state = .opened)
    (hwriting : c.carrier.transport.IsWriting) (hframes : ∀ x ∈ frames, isClose x.2 = false)
    (hawaits : c.carrier.transport.Awaits (frames ++ [(channel, .performative (.close v))]))
    (hhorizon : c.carrier.transport.latest ≤ c.carrier.transport.stream.horizon) :
    (Unanswered frames c →
        ∃ c', close error .unlimited c = .ok .reached c' ∧ c'.state = .ended) ∧
      (¬Unanswered frames c → ∃ halt c', close error .unlimited c = .error halt c') := by
  obtain ⟨writes, taken, hclose⟩ := close_eq_awaitEnd error hstate hwriting
  have hclosing := closing_afterClose hstate hwriting hframes hawaits hhorizon writes taken
  have hdecides := decides_awaitEnd (decides_pollToEnd hclosing hclosing.lt_pollBound)
  rw [hclose]
  rcases hdecides with ⟨hunanswered, hreached⟩ | ⟨hanswered, herror⟩
  · exact ⟨fun _ => hreached, fun h => absurd hunanswered h⟩
  · exact ⟨fun h => absurd h hanswered, fun _ => herror⟩

/-- A connection on which the peer has begun a session on its channel 5, with frames and then the
peer's Close on the way. -/
def beforeClose (frames : List (UInt16 × Frame)) : Connection :=
  let opening : List (UInt16 × Frame) :=
    [(0, .performative (.openFrame { containerId := "peer" })),
      (5, .performative (.begin { incomingWindow := 10, outgoingWindow := 10 }))]
  let octets := protocolHeader ++
    Transport.wire (opening ++ (frames ++ [(0, .performative (.close {}))]))
  run [.openUp .unlimited, .poll (some 100)] (overOctets octets)

/-- A heartbeat and a Flow that asks for no answer are on the way. -/
theorem close_reached_of_heartbeat_flow :
    let frames : List (UInt16 × Frame) :=
      [(0, .heartbeat), (5, .performative (.flow { incomingWindow := 20, outgoingWindow := 20 }))]
    let c := beforeClose frames
    c.state = .opened ∧ Unanswered frames c ∧
      ∃ c', close none .unlimited c = .ok .reached c' ∧ c'.state = .ended := by
  intro frames c
  have hstate : c.state = .opened := by decide +kernel
  have hunanswered : Unanswered frames c := by decide +kernel
  have hopen : c.carrier.transport.isOpen = true := by decide +kernel
  have hwrites : c.carrier.transport.stream.writes = [] := by decide +kernel
  have hreads : c.carrier.transport.stream.reads =
      [.octets (Transport.wire (frames ++ [(0, .performative (.close {}))]))] := by decide +kernel
  have hwriting : c.carrier.transport.IsWriting := by
    refine ⟨hopen, ?_⟩
    rw [hwrites]
    exact List.forall_mem_nil _
  have hreceiving : c.carrier.transport.IsReceiving := by
    refine ⟨hopen, by decide +kernel, ?_⟩
    rw [hreads]
    refine List.forall_mem_singleton.2 ?_
    change _ ≠ []
    decide
  have hflow : Performative.decode
      (Performative.flow { incomingWindow := 20, outgoingWindow := 20 }).encode =
        .ok (.flow { incomingWindow := 20, outgoingWindow := 20 }) :=
    Performative.decode_encode ⟨List.forall_mem_nil _, nofun⟩ (by decide)
  have hclose : Performative.decode (Performative.close {}).encode = .ok (.close {}) :=
    Performative.decode_encode ⟨List.forall_mem_nil _, nofun⟩ (by decide)
  have hawaits : c.carrier.transport.Awaits (frames ++ [(0, .performative (.close {}))]) := by
    refine ⟨hreceiving, by decide +kernel, ?_, by decide +kernel⟩
    simp [frames, Frame.IsDecodable, hflow, hclose]
  exact ⟨hstate, hunanswered, (close_reached_or_error none (Or.inr hstate) hwriting (by decide)
    hawaits (by decide +kernel)).1 hunanswered⟩

deriving instance DecidableEq for IllegalState

/-- The use out of turn that a result complains of. -/
def complaint : EStateM.Result Halt Connection WaitResult → Option IllegalState
  | .error (.fault (.illegalState cause)) _ => some cause
  | _ => none

/-- The End of the peer's session is on the way.  The session would answer it, but may not. -/
theorem complaint_close_of_end :
    let c := beforeClose [(5, .performative (.endFrame {}))]
    c.state = .opened ∧ c.sessions.values.map Session.state = [.mapped] ∧
      complaint (close none .unlimited c) = some (.connectionCannotSend .closeSent "end") := by
  decide +kernel

end Amqp.Connection
