import Amqp.Proofs.Connection.Ended

/-!
# The frames that a connection writes

Over a stream that takes everything, the frames that a connection has written are an Open, then
frames of sessions, then at most one Close (`IsGrammatical`).  A carrier that has written its Open
`Speaks`: what it has written fits its state, and once it has ended it has no stream any more.
Every single step keeps this (`stable_speaks`).  Before that a carrier `Greets`: it has written
nothing but protocol headers, and the carrier of a connection that is told to open begins to speak.
-/

namespace Amqp

/-- The frames of a connection that has not sent Close: the Open, and frames of sessions. -/
def IsOpened (frames : List (UInt16 × Performative)) : Prop :=
  ∃ o later, frames = (0, .openFrame o) :: later ∧ ∀ x ∈ later, x.2.isOfSession = true

/-- The frames that a connection may have written: none, or an Open, then frames of sessions, then
at most one Close and nothing after it. -/
def IsGrammatical (frames : List (UInt16 × Performative)) : Prop :=
  frames = [] ∨ ∃ opened ending, frames = opened ++ ending ∧ IsOpened opened ∧
    (ending = [] ∨ ∃ v, ending = [(0, .close v)])

theorem IsOpened.isGrammatical {frames : List (UInt16 × Performative)} (h : IsOpened frames) :
    IsGrammatical frames :=
  Or.inr ⟨frames, [], (List.append_nil _).symm, h, Or.inl rfl⟩

theorem IsOpened.close {frames : List (UInt16 × Performative)} (h : IsOpened frames) (v : Close) :
    IsGrammatical (frames ++ [(0, .close v)]) :=
  Or.inr ⟨frames, _, rfl, h, Or.inr ⟨v, rfl⟩⟩

theorem IsOpened.append {frames : List (UInt16 × Performative)} (h : IsOpened frames)
    (channel : UInt16) {p : Performative} (hp : p.isOfSession = true) :
    IsOpened (frames ++ [(channel, p)]) := by
  obtain ⟨o, later, rfl, hlater⟩ := h
  refine ⟨o, later ++ [(channel, p)], rfl, fun x hx => ?_⟩
  rcases List.mem_append.1 hx with hx | hx
  · exact hlater x hx
  · rw [List.mem_singleton.1 hx]
    exact hp

namespace Transport

variable {t : Transport} {frames : List (UInt16 × Performative)}

/-- Whether protocol headers, and then frames, are all that a transport has written. -/
def Said (frames : List (UInt16 × Performative)) (t : Transport) : Prop :=
  ∃ headers : List Bytes, (∀ h ∈ headers, h = protocolHeader ∨ h = tlsHeader) ∧
    t.stream.written = headers.flatten ++ wire (frames.map fun x => (x.1, .performative x.2))

theorem said_of_written {t' : Transport} (h : t.Said frames)
    (hsame : t'.stream.written = t.stream.written) : t'.Said frames := by
  obtain ⟨headers, hheaders, hwritten⟩ := h
  exact ⟨headers, hheaders, hsame.trans hwritten⟩

/-- A transport that writes, and what it has written. -/
structure Writes (frames : List (UInt16 × Performative)) (t : Transport) : Prop where
  isWriting : t.IsWriting
  said : t.Said frames

theorem Writes.of_writingSide {t' : Transport} (h : t.Writes frames)
    (hsame : t'.writingSide = t.writingSide) : t'.Writes frames := by
  refine ⟨h.isWriting.of_writingSide hsame, said_of_written h.said ?_⟩
  exact congrArg (fun side : Bool × List WriteEvent × List Bytes => side.2.2.reverse.flatten) hsame

theorem Writes.receive (h : t.Writes frames) (wait : Option Nat) :
    Action.Leaves (Writes frames) (receive wait t) :=
  (keeps_receive wait t rfl).mono fun _ => h.of_writingSide

/-- A frame is written behind the others. -/
theorem Writes.send (h : t.Writes frames) (channel : UInt16) (p : Performative) :
    ∃ t', Transport.send channel (.performative p) t = .ok () t' ∧
      t'.Writes (frames ++ [(channel, p)]) := by
  obtain ⟨writes, taken, hwrite, hsucceeds, htaken⟩ :=
    write_eq h.isWriting ((Frame.performative p).encode channel)
  obtain ⟨headers, hheaders, hwritten⟩ := h.said
  refine ⟨_, hwrite, ⟨h.isWriting.isOpen, hsucceeds⟩, headers, hheaders, ?_⟩
  refine htaken.trans ?_
  rw [hwritten, List.map_append, wire, wire, List.flatMap_append, List.append_assoc,
    List.map_singleton, List.flatMap_singleton]

/-- A protocol header is written behind others. -/
theorem Said.header (h : t.Said []) {header : Bytes}
    (hheader : header = protocolHeader ∨ header = tlsHeader) {t' : Transport}
    (hwritten : t'.stream.written = t.stream.written ++ header) : t'.Said [] := by
  obtain ⟨headers, hheaders, hbefore⟩ := h
  refine ⟨headers ++ [header], fun other hother => ?_, ?_⟩
  · rcases List.mem_append.1 hother with hother | hother
    · exact hheaders other hother
    · rw [List.mem_singleton.1 hother]
      exact hheader
  · rw [hwritten, hbefore, List.flatten_append, List.flatten_singleton]
    simp [wire]

/-- A header that is exchanged leaves a transport that writes. -/
theorem Writes.exchange (h : t.Writes []) {header : Bytes}
    (hheader : header = protocolHeader ∨ header = tlsHeader) :
    Action.Leaves (Writes []) (exchange header t) := by
  obtain ⟨writes, taken, hwrite, hsucceeds, htaken⟩ := write_eq h.isWriting header
  have hwritten : Writes [] { t with stream := { t.stream with writes, taken } } :=
    ⟨⟨h.isWriting.isOpen, hsucceeds⟩, h.said.header hheader htaken⟩
  unfold Transport.exchange
  rw [Action.bind_of_ok hwrite]
  have hread := (keeps_readOctets header.length none _ rfl).mono fun _ => hwritten.of_writingSide
  refine Action.leaves_bind hread (fun received t' _ ht' => ?_) fun _ => id
  split
  · exact ht'
  · exact ht'

/-- Whether protocol headers are all that a transport has written, over a stream that takes
everything. -/
structure Greets (t : Transport) : Prop where
  said : t.Said []
  succeeds : ∀ e ∈ t.stream.writes, e.Succeeds

theorem Writes.greets (h : t.Writes []) : t.Greets := ⟨h.said, h.isWriting.succeeds⟩

/-- A header is exchanged, if it is, on a transport that writes. -/
theorem Greets.exchange (h : t.Greets) {header : Bytes}
    (hheader : header = protocolHeader ∨ header = tlsHeader) :
    Action.Leaves Greets (exchange header t) ∧
      ∀ a t', Transport.exchange header t = .ok a t' → t'.Writes [] := by
  cases hopen : t.isOpen with
  | true =>
    have hwrites : Action.Leaves (Writes []) (Transport.exchange header t) :=
      Writes.exchange ⟨⟨hopen, h.succeeds⟩, h.said⟩ hheader
    refine ⟨hwrites.mono fun _ => Writes.greets, fun a t' hresult => ?_⟩
    rw [hresult] at hwrites
    exact hwrites
  | false =>
    have hfails : Transport.exchange header t = .error (.fault (.closed .transportClosed)) t := by
      unfold Transport.exchange
      rw [Action.bind_of_error (write_of_not_isOpen hopen header)]
    refine ⟨?_, fun a t' hresult => ?_⟩
    · rw [hfails]
      exact h
    · rw [hfails] at hresult
      cases hresult

theorem keeps_greets_ensureConnected : Action.Keeps Greets ensureConnected := by
  unfold ensureConnected
  refine Action.keeps_get_bind fun t ht => ?_
  split
  · exact ht
  · exact ht

theorem keeps_greets_negotiateTls : Action.Keeps Greets negotiateTls := by
  unfold negotiateTls
  refine Action.keeps_get_bind fun t ht => ?_
  split
  · exact (ht.exchange (Or.inr rfl)).1
  · exact ht

end Transport

namespace Connection

/-! ## Carriers that have sent the Open -/

/-- Whether what a carrier has written, the Open at least, fits the state that it is in. -/
inductive Carrier.Speaks (k : Carrier) : Prop
  | running (frames : List (UInt16 × Performative))
      (state_eq : k.state = .openSent ∨ k.state = .opened)
      (writes : k.transport.Writes frames) (isOpened : IsOpened frames)
  | closing (frames : List (UInt16 × Performative)) (state_eq : k.state = .closeSent)
      (writes : k.transport.Writes frames) (isGrammatical : IsGrammatical frames)
  | ended (frames : List (UInt16 × Performative)) (state_eq : k.state = .ended)
      (isClosed : k.transport.IsClosed) (said : k.transport.Said frames)
      (isGrammatical : IsGrammatical frames)

namespace Carrier

variable {k : Carrier}

theorem Speaks.exists_said (h : k.Speaks) :
    ∃ frames, k.transport.Said frames ∧ IsGrammatical frames := by
  cases h with
  | running frames _ hwrites hopened => exact ⟨frames, hwrites.said, hopened.isGrammatical⟩
  | closing frames _ hwrites hgrammatical => exact ⟨frames, hwrites.said, hgrammatical⟩
  | ended frames _ _ hsaid hgrammatical => exact ⟨frames, hsaid, hgrammatical⟩

theorem Speaks.ne_start (h : k.Speaks) : k.state ≠ .start := by
  intro hstart
  cases h with
  | running _ hstate => rcases hstate with hstate | hstate <;> cases hstart.symm.trans hstate
  | closing _ hstate => cases hstart.symm.trans hstate
  | ended _ hstate => cases hstart.symm.trans hstate

/-- Frames of sessions are only written between Open and Close. -/
theorem keeps_speaks_carry (channel : UInt16) (p : Performative) (hp : p.isOfSession = true) :
    Action.Keeps Speaks (FrameCarrier.carry channel p) := by
  have hrefused (k : Carrier) (hk : k.Speaks) (h : k.Refuses) :
      Action.Leaves Speaks (FrameCarrier.carry channel p k) := by
    rw [carry_of_refuses h]
    exact hk
  intro k hk
  cases hk with
  | running frames hstate hwrites hopened =>
    obtain ⟨t, hsend, hwrites'⟩ := hwrites.send channel p
    rw [carry_of_carries (carriesSessions_of_live hstate)]
    unfold transporting Action.within
    rw [hsend]
    exact .running _ hstate hwrites' (hopened.append channel hp)
  | closing frames hstate hwrites hgrammatical =>
    exact hrefused k (.closing frames hstate hwrites hgrammatical)
      (refuses_of_state_eq hstate rfl)
  | ended frames hstate hclosed hsaid hgrammatical =>
    exact hrefused k (.ended frames hstate hclosed hsaid hgrammatical)
      (refuses_of_state_eq hstate rfl)

end Carrier

variable {c : Connection}

/-- At the end nothing is written any more, whatever the state was. -/
theorem speaks_terminate {frames : List (UInt16 × Performative)}
    (hsaid : c.carrier.transport.Said frames) (h : IsGrammatical frames) :
    c.terminate.carrier.Speaks := by
  have hcarrier : c.terminate.carrier =
      { c.carrier with state := .ended, transport := c.carrier.transport.close } := by
    unfold terminate
    dsimp only
    rw [carrier_enter]
  rw [hcarrier]
  exact .ended frames rfl (Transport.isClosed_close _) hsaid h

theorem send_eq {frames : List (UInt16 × Performative)}
    (h : c.carrier.transport.Writes frames) (p : Performative) :
    ∃ t, send p c = .ok () { c with carrier := { c.carrier with transport := t } } ∧
      t.Writes (frames ++ [(0, p)]) := by
  obtain ⟨t, hsend, hwrites⟩ := h.send 0 p
  exact ⟨t, transporting_of_ok hsend, hwrites⟩

/-! ## Steps of a connection that has sent the Open -/

theorem keeps_speaks_terminate :
    Action.Keeps (fun c => c.carrier.Speaks) (modify terminate : Action Connection Unit) := by
  refine Action.keeps_modify fun c hc => ?_
  obtain ⟨frames, hsaid, hgrammatical⟩ := hc.exists_said
  exact speaks_terminate hsaid hgrammatical

theorem keeps_speaks_receive (wait : Option Nat) :
    Action.Keeps (fun c => c.carrier.Speaks) (transporting (Transport.receive wait)) := by
  intro c hc
  refine leaves_transporting ?_
  cases hc with
  | running frames hstate hwrites hopened =>
    exact (hwrites.receive wait).mono fun t ht => .running frames hstate ht hopened
  | closing frames hstate hwrites hgrammatical =>
    exact (hwrites.receive wait).mono fun t ht => .closing frames hstate ht hgrammatical
  | ended frames hstate hclosed hsaid hgrammatical =>
    rw [Transport.receive_of_isClosed hclosed]
    exact .ended frames hstate hclosed hsaid hgrammatical

theorem keeps_speaks_onOpen (v : Open) :
    Action.Keeps (fun c => c.carrier.Speaks) (onOpen v) := by
  intro c hc
  rcases onOpen_cases v c with ⟨hsent, size, c', hopen, hcarrier⟩ | ⟨cause, hopen⟩
  · rw [hopen]
    refine (congrArg Carrier.Speaks hcarrier).mpr ?_
    cases hc with
    | running frames _ hwrites hopened => exact .running frames (Or.inr rfl) hwrites hopened
    | closing _ hstate => cases hsent.symm.trans hstate
    | ended _ hstate => cases hsent.symm.trans hstate
  · rw [hopen]
    exact hc

theorem speaks_onClose (hc : c.carrier.Speaks) (hlive : c.state ≠ .ended) :
    Action.Leaves (fun c => c.carrier.Speaks) (onClose c) := by
  unfold onClose
  rw [Action.get_bind]
  split
  · rename_i hstate
    cases hc with
    | running frames _ hwrites hopened =>
      have henter : (modify (enter .closeReceived) : Action Connection Unit) c =
          .ok () (c.enter .closeReceived) := rfl
      have hwrites' : (c.enter .closeReceived).carrier.transport.Writes frames := by
        rw [carrier_enter]
        exact hwrites
      obtain ⟨t, hsend, ht⟩ := send_eq hwrites' (.close {})
      rw [Action.bind_of_ok henter, Action.bind_of_ok hsend]
      exact speaks_terminate ht.said (hopened.close {})
    | closing _ hclosing => exact absurd hclosing hstate
    | ended _ hended => exact absurd hended hlive
  · exact keeps_speaks_terminate c hc

theorem speaks_dispatch (channel : UInt16) (p : Performative) (hc : c.carrier.Speaks)
    (hlive : c.state ≠ .ended) :
    Action.Leaves (fun c => c.carrier.Speaks) (dispatch channel p c) := by
  cases p with
  | openFrame v => exact keeps_speaks_onOpen v c hc
  | close v => exact speaks_onClose hc hlive
  | begin v => exact keeps_onBegin Carrier.keeps_speaks_carry channel v c hc
  | _ => exact keeps_onSessionFrame Carrier.keeps_speaks_carry channel _ c hc

/-- A Close that tells a fault is only sent if no Close has been sent. -/
theorem keeps_speaks_abort (cause : Fault) :
    Action.Keeps (fun c => c.carrier.Speaks) (abort cause) := by
  intro c hc
  unfold abort
  rw [Action.get_bind]
  dsimp only
  split
  · rename_i hmay
    simp only [Bool.and_eq_true, bne_iff_ne] at hmay
    cases hc with
    | running frames _ hwrites hopened =>
      obtain ⟨t, hsend, ht⟩ := send_eq hwrites (.close { error := some (closeError cause) })
      have htolerant : Action.tolerant (send (.close { error := some (closeError cause) })) c =
          .ok () { c with carrier := { c.carrier with transport := t } } := by
        unfold Action.tolerant
        rw [hsend]
      rw [Action.bind_of_ok htolerant]
      exact speaks_terminate ht.said (hopened.close _)
    | closing _ hclosing => exact absurd hclosing hmay.1.2
    | ended _ hended => exact absurd hended hmay.2
  · exact keeps_speaks_terminate c hc

theorem keeps_speaks_poll (wait : Option Nat) :
    Action.Keeps (fun c => c.carrier.Speaks) (poll wait) := by
  intro c hc
  refine leaves_poll (keeps_speaks_receive wait c hc) ?_ keeps_speaks_abort
  intro channel p c' hreceive hc'
  refine speaks_dispatch channel p hc' fun hended => ?_
  obtain ⟨t, ht, rfl⟩ := transporting_eq_ok hreceive
  have hstate : c.carrier.state = .ended := hended
  cases hc with
  | running _ hlive => rcases hlive with hlive | hlive <;> cases hstate.symm.trans hlive
  | closing _ hlive => cases hstate.symm.trans hlive
  | ended _ _ hclosed =>
    rw [receive_of_isClosed hclosed wait] at hreceive
    cases hreceive

theorem keeps_speaks_close (error : Option ErrorInfo) (wait : Patience) :
    Action.Keeps (fun c => c.carrier.Speaks) (close error wait) := by
  have hterminate (c : Connection) (hc : c.carrier.Speaks) : c.terminate.carrier.Speaks :=
    keeps_speaks_terminate c hc
  have hawait : Action.Keeps (fun c => c.carrier.Speaks)
      (if !wait.waits then pure .notWaited else awaitEnd wait) := by
    split
    · exact Action.keeps_pure _
    · exact keeps_awaitEnd keeps_speaks_poll hterminate wait
  intro c hc
  cases hc with
  | running frames hstate hwrites hopened =>
    obtain ⟨t, hsend, ht⟩ := send_eq hwrites (.close { error })
    rw [close_of_sent (State.sendsClose_of_live hstate) hsend]
    refine hawait _ ?_
    dsimp only
    rw [carrier_enter]
    exact .closing _ rfl ht (hopened.close _)
  | closing frames hstate hwrites hgrammatical =>
    have hclosing : c.state = .closeSent := hstate
    unfold close
    rw [Action.get_bind, hclosing]
    exact hawait c (.closing frames hstate hwrites hgrammatical)
  | ended frames hstate hclosed hsaid hgrammatical =>
    have hended : c.state = .ended := hstate
    unfold close
    rw [Action.get_bind, hended]
    exact .ended frames hstate hclosed hsaid hgrammatical

theorem keeps_speaks_openUp (wait : Patience) :
    Action.Keeps (fun c => c.carrier.Speaks) (openUp wait) := by
  intro c hc
  have hstate : c.state ≠ .start := hc.ne_start
  rw [openUp_of_ne_start hstate]
  exact hc

/-- What a connection writes after its Open always fits its state. -/
theorem stable_speaks : Stable fun c => c.carrier.Speaks where
  openUp := keeps_speaks_openUp
  close := keeps_speaks_close
  poll := keeps_speaks_poll
  onSession channel call :=
    keeps_onSession Carrier.keeps_speaks_carry (Session.scripted_perform call) channel
  addSession hc h := by
    obtain ⟨channel, s, -, -, -, hresult⟩ := addSession_cases h
    rw [hresult]
    exact hc
  release _ _ hc := hc
  evaluate _ hc := hc

/-! ## Connections that have not sent the Open -/

/-- A carrier of a connection that has not been opened. -/
structure Carrier.Greets (k : Carrier) : Prop where
  state_eq : k.state = .start
  greets : k.transport.Greets

theorem Carrier.Greets.refuses {k : Carrier} (h : k.Greets) : k.Refuses :=
  refuses_of_state_eq h.state_eq rfl

theorem Carrier.keeps_greets_carry (channel : UInt16) (p : Performative)
    (_ : p.isOfSession = true) : Action.Keeps Greets (FrameCarrier.carry channel p) := by
  intro k hk
  rw [carry_of_refuses hk.refuses]
  exact hk

theorem keeps_greets_transporting {α : Type} {x : Action Transport α}
    (h : Action.Keeps Transport.Greets x) :
    Action.Keeps (fun c => c.carrier.Greets) (transporting x) := fun c hc =>
  leaves_transporting ((h c.carrier.transport hc.greets).mono fun _ ht => ⟨hc.state_eq, ht⟩)

/-- Opening writes headers, and then the Open. -/
theorem opens_openUp (hc : c.carrier.Greets) (wait : Patience) :
    Action.Leaves (fun c => c.carrier.Greets ∨ c.carrier.Speaks) (openUp wait c) := by
  have hawait : Action.Keeps (fun c => c.carrier.Speaks)
      (if !wait.waits then pure .notWaited else await wait fun c => c.state = .opened) := by
    split
    · exact Action.keeps_pure _
    · exact keeps_await keeps_speaks_poll wait _
  have hstart : c.state = .start := hc.state_eq
  unfold openUp
  rw [Action.get_bind]
  dsimp only
  rw [if_neg (not_not.2 hstart)]
  refine Action.leaves_bind (keeps_greets_transporting Transport.keeps_greets_ensureConnected c hc)
    (fun _ c _ hc => ?_) fun _ => Or.inl
  refine Action.leaves_bind (keeps_greets_transporting Transport.keeps_greets_negotiateTls c hc)
    (fun _ c _ hc => ?_) fun _ => Or.inl
  have hexchange := hc.greets.exchange (Or.inl rfl : protocolHeader = protocolHeader ∨ _)
  have hheader : Action.Leaves (fun c => c.carrier.Greets)
      (transporting (Transport.exchange protocolHeader) c) :=
    leaves_transporting (hexchange.1.mono fun _ ht => ⟨hc.state_eq, ht⟩)
  refine Action.leaves_bind hheader (fun _ c' hresult _ => ?_) fun _ => Or.inl
  obtain ⟨t, ht, rfl⟩ := transporting_eq_ok hresult
  have hwrites : ((enter .headersExchanged
      { c with carrier := { c.carrier with transport := t } }).carrier.transport).Writes [] := by
    rw [carrier_enter]
    exact hexchange.2 _ t ht
  generalize hc' : enter .headersExchanged
      { c with carrier := { c.carrier with transport := t } } = c' at hwrites
  have henter : (modify (enter .headersExchanged) : Action Connection Unit)
      { c with carrier := { c.carrier with transport := t } } = .ok () c' := by
    rw [← hc']
    rfl
  obtain ⟨t', hsend, ht'⟩ := send_eq hwrites (.openFrame c'.toOpen)
  have hsent : (modify (enter .openSent) : Action Connection Unit)
      { c' with carrier := { c'.carrier with transport := t' } } =
        .ok () (enter .openSent { c' with carrier := { c'.carrier with transport := t' } }) := rfl
  rw [Action.bind_of_ok henter, Action.get_bind, Action.bind_of_ok hsend, Action.bind_of_ok hsent]
  refine (hawait _ ?_).mono fun _ => Or.inr
  dsimp only
  rw [carrier_enter]
  exact .running _ (Or.inl rfl) ht' ⟨_, [], rfl, List.forall_mem_nil _⟩

/-- Nothing is sent on a carrier that refuses. -/
theorem emit_of_refuses {k : Carrier} (hk : k.Refuses) (p : Performative) (s : Session) :
    Session.Acting.emit p (s, k) =
      .error (.fault (.illegalState (.connectionCannotSend k.state p.name))) (s, k) :=
  Session.emit_of_error (Carrier.carry_of_refuses hk s.channel p)

/-- A session that is refused does not begin. -/
theorem begin_ne_ok {k : Carrier} (hk : k.Refuses) (wait : Patience) (s : Session) {a : Unit}
    {y : Session × Carrier} : Session.begin wait (s, k) ≠ .ok a y := by
  intro h
  have hsend : (Session.sendBegin : Session.Acting Carrier Unit) (s, k) = .error _ _ :=
    emit_of_refuses hk (.begin s.toBegin) s
  unfold Session.begin at h
  rw [Session.Acting.current_bind] at h
  dsimp only at h
  split at h
  · cases h
  split at h
  · cases h
  rw [Action.bind_of_error hsend] at h
  cases h

/-- A session that is refused does not end, unless it is over or has not begun. -/
theorem finish_of_refuses {k : Carrier} (hk : k.Refuses) {error : Option ErrorInfo} {s : Session}
    {a : Unit} {y : Session × Carrier} (h : Session.finish error (s, k) = .ok a y) :
    y = (s, k) ∧ s.IsIdle := by
  have hsend : (Session.sendEnd error : Session.Acting Carrier Unit) (s, k) = .error _ _ :=
    emit_of_refuses hk (.endFrame { error }) s
  unfold Session.finish at h
  rw [Session.Acting.current_bind] at h
  split at h
  · rw [Action.bind_of_error hsend] at h
    cases h
  · rename_i hidle
    cases h
    exact ⟨rfl, by unfold Session.IsIdle; rwa [not_and_or, not_not, not_not, or_comm] at hidle⟩

theorem greets_onSession (hc : c.carrier.Greets) (channel : UInt16) (call : Session.Call) :
    Action.Leaves (fun c => c.carrier.Greets) (onSession channel call.perform c) :=
  keeps_onSession Carrier.keeps_greets_carry (Session.scripted_perform call) channel c hc

/-- Before the Open no session begins, so nothing is waited for. -/
theorem greets_beginOn (hc : c.carrier.Greets) (channel : UInt16) (wait : Patience) :
    Action.Leaves (fun c => c.carrier.Greets) (beginOn channel wait c) := by
  refine Action.leaves_bind (greets_onSession hc channel (.begin wait)) (fun _ c' hresult _ => ?_)
    fun _ => id
  obtain ⟨s, s', k, -, hbegin, -⟩ := onSession_eq_ok hresult
  exact absurd hbegin (begin_ne_ok hc.refuses wait s)

/-- Before the Open no session waits for an End. -/
theorem greets_finishOn (hc : c.carrier.Greets) (channel : UInt16) (error : Option ErrorInfo)
    (wait : Patience) :
    Action.Leaves (fun c => c.carrier.Greets) (finishOn channel error wait c) := by
  refine Action.leaves_bind (greets_onSession hc channel (.finish error))
    (fun _ c' hresult hc' => ?_) fun _ => id
  obtain ⟨s, s', k, -, hfinish, rfl⟩ := onSession_eq_ok hresult
  obtain ⟨hsame, hidle⟩ := finish_of_refuses hc.refuses hfinish
  cases hsame
  have hreached : ((c.sessions.insert channel s).get? channel).any
      (fun s => s.state ≠ .endSent) = true := by
    rw [Table.get?_insert, if_pos rfl]
    rcases hidle with hidle | hidle <;> simp [hidle]
  rw [Action.get_bind]
  dsimp only
  rw [if_pos hreached]
  exact hc'

/-- Before the Open a call that does not listen writes nothing but headers, unless it opens the
connection. -/
theorem opens_perform (hc : c.carrier.Greets) {call : Call} (hcall : call.listens = false) :
    Action.Leaves (fun c => c.carrier.Greets ∨ c.carrier.Speaks) (call.perform c) := by
  cases call with
  | openUp wait => exact leaves_discard (opens_openUp hc wait)
  | close error wait =>
    have hstart : c.state = .start := hc.state_eq
    refine leaves_discard ?_
    unfold close
    rw [Action.get_bind, hstart]
    exact Or.inr (speaks_terminate hc.greets.said (Or.inl rfl))
  | addSession settings =>
    refine Action.Leaves.mono (keeps_addSession (fun c result hc h => ?_) c hc) fun _ => Or.inl
    obtain ⟨channel, s, -, -, -, hresult⟩ := addSession_cases h
    exact (congrArg (fun c => c.carrier.Greets) hresult).mpr hc
  | beginOn channel wait =>
    exact leaves_discard ((greets_beginOn hc channel wait).mono fun _ => Or.inl)
  | finishOn channel error wait =>
    exact leaves_discard ((greets_finishOn hc channel error wait).mono fun _ => Or.inl)
  | onSession channel call => exact (greets_onSession hc channel call).mono fun _ => Or.inl
  | release channel => exact Or.inl hc
  | evaluate => exact Or.inl hc
  | awaitSession | poll | drive => cases hcall

/-! ## Runs -/

/-- Whether calls listen only when the connection is not at its start any more: once it has been
told to open, and has sent the Open. -/
def Admits : List Call → Connection → Prop
  | [], _ => True
  | call :: calls, c => (call.listens = true → c.state ≠ .start) ∧ Admits calls (c.after call)

instance Admits.decidable : (calls : List Call) → (c : Connection) → Decidable (Admits calls c)
  | [], _ => .isTrue trivial
  | call :: calls, c =>
    have := Admits.decidable calls (c.after call)
    inferInstanceAs (Decidable (_ ∧ _))

/-- An invariant of all runs: either the Open has not been sent, or what has been written fits the
state. -/
theorem opens_run (calls : List Call) (hc : c.carrier.Greets ∨ c.carrier.Speaks)
    (hcalls : Admits calls c) : (run calls c).carrier.Greets ∨ (run calls c).carrier.Speaks := by
  induction calls generalizing c with
  | nil => exact hc
  | cons call calls ih =>
    obtain ⟨hcall, hrest⟩ := hcalls
    refine ih ?_ hrest
    rcases hc with hc | hc
    · have hsilent : call.listens = false :=
        Bool.eq_false_iff.2 fun hlistens => hcall hlistens hc.state_eq
      exact after_of_leaves (opens_perform hc hsilent)
    · exact Or.inr (stable_speaks.after hc call)

/-- Whatever the peer sends, whichever reads fail, and whatever a connection is asked for, the
frames that it has written over a stream that takes everything are none at all, or one Open, then
frames of sessions, then at most one Close and nothing after it. -/
theorem grammatical_of_run (transport : Transport) (settings : Settings) (identity : String)
    (sessionName : UInt16 → String) {calls : List Call} (hnothing : transport.stream.taken = [])
    (hsucceeds : ∀ e ∈ transport.stream.writes, e.Succeeds)
    (hcalls : Admits calls (create transport settings identity sessionName)) :
    ∃ frames, (run calls (create transport settings identity sessionName)).carrier.transport.Said
      frames ∧ IsGrammatical frames := by
  have hwritten : transport.stream.written = [] := by
    unfold Stream.written
    rw [hnothing]
    rfl
  have hstart : (create transport settings identity sessionName).carrier.Greets :=
    ⟨rfl, ⟨[], List.forall_mem_nil _, hwritten⟩, hsucceeds⟩
  rcases opens_run calls (Or.inl hstart) hcalls with hgreets | hspeaks
  · exact ⟨[], hgreets.greets.said, Or.inl rfl⟩
  · exact hspeaks.exists_said

/-- What a peer sends that opens the connection, lets a session begin and closes the connection. -/
def openedAndClosed : Bytes :=
  protocolHeader ++
    Transport.wire
      [(0, .performative (.openFrame { containerId := "peer" })),
        (0, .performative (.begin
          { remoteChannel := some 0, nextOutgoingId := 0, incomingWindow := 9, outgoingWindow := 9,
            handleMax := 9 })),
        (0, .performative (.close {}))]

/-- Calls that open a connection and a session, and end both when the peer has closed the
connection. -/
def callsToTheEnd : List Call :=
  [.openUp .unlimited, .addSession none, .beginOn 0 .unlimited, .onSession 0 (.sendFlow none),
    .poll none, .finishOn 0 none .unlimited, .close none .unlimited]

theorem grammatical_of_callsToTheEnd :
    Admits callsToTheEnd (overOctets openedAndClosed) ∧
      (run callsToTheEnd (overOctets openedAndClosed)).state = .ended ∧
      ∃ frames, (run callsToTheEnd (overOctets openedAndClosed)).carrier.transport.Said frames ∧
        IsGrammatical frames := by
  have hcalls : Admits callsToTheEnd (overOctets openedAndClosed) := by decide +kernel
  have hended : (run callsToTheEnd (overOctets openedAndClosed)).state = .ended := by
    decide +kernel
  unfold overOctets at hcalls hended ⊢
  have hnothing : (transportOver openedAndClosed).stream.taken = [] := rfl
  exact ⟨hcalls, hended, grammatical_of_run _ _ _ _ hnothing (List.forall_mem_nil _) hcalls⟩

end Connection

end Amqp
