import Amqp.Proofs.Connection.Courses
import Amqp.Proofs.Performative.Plain
import Amqp.Proofs.Transport.Writing

/-!
# Sizes of the frames that a connection writes

Once the peer's Open has told its greatest frame, a connection writes no transfer beyond the
greatest frame of both ends, and no plain performative beyond the least size that an end may
announce (`fits_of_course`).  A carrier that has taken the peer's Open `Heeds` the limit, and every
single step keeps this (`stable_heeds`).  Nothing else is measured before it is written: the Close
with a long description exceeds the limit (`exceeds_of_longDescription`).
-/

namespace Amqp

/-- Whether a performative is no greater than a limit if it is a transfer, and no greater than the
least limit if it is plain. -/
structure Performative.Fits (limit : UInt32) (p : Performative) : Prop where
  transfer_le : p.takesPayload = true → Frame.size p ≤ limit.toNat
  plain_le : p.isPlain = true → Frame.size p ≤ leastMaxFrameSize.toNat

theorem Performative.fits_of_transfer_le {p : Performative} {limit : UInt32}
    (h : p.takesPayload = true → Frame.size p ≤ limit.toNat) : p.Fits limit :=
  ⟨h, fun hplain => Nat.le_trans (size_le_of_isPlain hplain) (by decide)⟩

theorem Performative.fits_close (limit : UInt32) (v : Close) : (close v).Fits limit :=
  fits_of_transfer_le fun h => absurd h Bool.false_ne_true

theorem Performative.Suits.fits {p : Performative} {limit : UInt32} (h : p.Suits limit) :
    p.Fits limit := fits_of_transfer_le h.size_le

namespace Transport

/-! ## Frames handed to the stream -/

/-- Whether the stream of a transport takes everything. -/
def TakesAll (t : Transport) : Prop := ∀ e ∈ t.stream.writes, e.Succeeds

/-- What a write leaves behind what has been written: a front part of the data, and all of it or
nothing if the stream takes everything. -/
theorem leaves_write (data : Bytes) (t : Transport) :
    Action.Leaves (fun t' => ∃ front, front <+: data ∧
      t'.stream.written = t.stream.written ++ front ∧
      (t.TakesAll → (front = data ∨ front = []) ∧ t'.TakesAll)) (write data t) := by
  obtain ⟨front, hprefix, htaken⟩ := exists_prefix_pour t.stream.horizon
    (t.writeTimeout.map (t.stream.now + ·)) t.stream.taken t.stream.now data t.stream.writes
  have hfits (h : t.TakesAll) :
      (front = data ∨ front = []) ∧ (t.withPoured (t.poured data)).TakesAll := by
    obtain ⟨hok, -, hrest⟩ := pour_of_succeeds h t.stream.horizon
      (t.writeTimeout.map (t.stream.now + ·)) t.stream.taken t.stream.now data
    have hwhole := flatten_taken_pour _ _ _ _ _ _ hok
    exact ⟨Or.inl (List.append_cancel_left (htaken.symm.trans hwhole)), hrest⟩
  have hspec := write_spec data t
  generalize write data t = r at hspec ⊢
  cases hspec with
  | closed _ => exact ⟨[], List.nil_prefix, (List.append_nil _).symm, fun h => ⟨Or.inr rfl, h⟩⟩
  | done _ => exact ⟨front, hprefix, htaken, hfits⟩
  | stalled _ => exact ⟨front, hprefix, htaken, hfits⟩
  | failed f _ =>
    show Action.Leaves _ (EStateM.Result.error (Halt.fault f) (if f.isTimeout then _ else _))
    split_ifs
    · exact ⟨front, hprefix, htaken, hfits⟩
    · exact ⟨front, hprefix, htaken, hfits⟩

/-- A frame that has been handed to a stream, and what the stream has taken of it. -/
structure Handed where
  channel : UInt16
  performative : Performative
  taken : Bytes

/-- The octets of such a frame. -/
def Handed.octets (x : Handed) : Bytes := Frame.encodePerformative x.channel x.performative

/-- Whether a transport has become another one by writing frames that fit.  Of a frame a front part
may have been taken, but the whole frame if the stream takes everything. -/
structure WroteWithin (limit : UInt32) (t t' : Transport) : Prop where
  written_eq : ∃ frames : List Handed,
    t'.stream.written = t.stream.written ++ frames.flatMap Handed.taken ∧
      ∀ x ∈ frames, x.performative.Fits limit ∧ x.taken <+: x.octets ∧
        (t.TakesAll → x.taken = x.octets)
  takesAll : t.TakesAll → t'.TakesAll

namespace WroteWithin

variable {limit : UInt32} {t t' t'' : Transport}

theorem refl (limit : UInt32) (t : Transport) : WroteWithin limit t t :=
  ⟨⟨[], (List.append_nil _).symm, List.forall_mem_nil _⟩, id⟩

theorem of_writingSide (h : WroteWithin limit t t') (hsame : t''.writingSide.2 = t'.writingSide.2) :
    WroteWithin limit t t'' := by
  obtain ⟨⟨frames, hwritten, hframes⟩, hall⟩ := h
  obtain ⟨hwrites, htaken⟩ := Prod.ext_iff.1 hsame
  have hsaid : t''.stream.written = t'.stream.written :=
    congrArg (fun taken : List Bytes => taken.reverse.flatten) htaken
  refine ⟨⟨frames, hsaid.trans hwritten, hframes⟩, fun h e he => hall h e ?_⟩
  exact (congrArg (e ∈ ·) hwrites).mp he

/-- Sending writes one frame more, or nothing. -/
theorem send (h : WroteWithin limit t t') (channel : UInt16) {p : Performative}
    (hp : p.Fits limit) :
    Action.Leaves (WroteWithin limit t) (Transport.send channel (.performative p) t') := by
  obtain ⟨⟨frames, hwritten, hframes⟩, hall⟩ := h
  refine (leaves_write (Frame.encodePerformative channel p) t').mono fun t'' hafter => ?_
  obtain ⟨front, hprefix, htaken, hfront⟩ := hafter
  refine ⟨?_, fun h => (hfront (hall h)).2⟩
  by_cases hnothing : front = []
  · refine ⟨frames, ?_, hframes⟩
    rw [htaken, hnothing, List.append_nil]
    exact hwritten
  · refine ⟨frames ++ [⟨channel, p, front⟩], ?_, fun x hx => ?_⟩
    · rw [htaken, hwritten, List.flatMap_append, List.flatMap_singleton, List.append_assoc]
    · rcases List.mem_append.1 hx with hx | hx
      · exact hframes x hx
      · rw [List.mem_singleton.1 hx]
        exact ⟨hp, hprefix, fun h => (hfront (hall h)).1.resolve_right hnothing⟩

end WroteWithin

end Transport

namespace Connection

/-! ## Carriers that have taken the peer's Open -/

/-- Whether a carrier that has taken the peer's Open has written frames that fit since. -/
structure Carrier.Heeds (limit : UInt32) (t : Transport) (k : Carrier) : Prop where
  ne_start : k.state ≠ .start
  ne_openSent : k.state ≠ .openSent
  limit_eq : FrameCarrier.maxFrameSize k = limit
  wrote : t.WroteWithin limit k.transport

variable {limit : UInt32} {t : Transport} {c : Connection}

theorem Carrier.keeps_heeds_transporting {α : Type} {x : Action Transport α}
    (hx : Action.Keeps (t.WroteWithin limit) x) :
    Action.Keeps (Heeds limit t) (transporting x) :=
  hx.within (fun _ hk => hk.wrote) fun _ _ hk ht =>
    ⟨hk.ne_start, hk.ne_openSent, hk.limit_eq, ht⟩

theorem Carrier.keeps_heeds_carry (channel : UInt16) {p : Performative} (hp : p.Suits limit) :
    Action.Keeps (Heeds limit t) (FrameCarrier.carry channel p) :=
  keeps_carry_of_send (keeps_heeds_transporting fun _ ht => ht.send channel hp.fits)

/-- What keeps the transport within the limit keeps the connection there. -/
theorem keeps_heeds_transporting {α : Type} {x : Action Transport α}
    (hx : Action.Keeps (t.WroteWithin limit) x) :
    Action.Keeps (fun c => c.carrier.Heeds limit t) (transporting x) :=
  (Carrier.keeps_heeds_transporting hx).within (fun _ hc => hc) fun _ _ _ hk => hk

theorem keeps_heeds_receive (wait : Option Nat) :
    Action.Keeps (fun c => c.carrier.Heeds limit t) (transporting (Transport.receive wait)) :=
  keeps_heeds_transporting fun t' ht =>
    (Transport.keeps_receive wait t' rfl).mono fun _ h =>
      ht.of_writingSide (congrArg Prod.snd h)

theorem keeps_heeds_send {p : Performative} (hp : p.Fits limit) :
    Action.Keeps (fun c => c.carrier.Heeds limit t) (send p) :=
  keeps_heeds_transporting fun _ ht => ht.send 0 hp

theorem heeds_enter {state : State} (hc : c.carrier.Heeds limit t) (hstart : state ≠ .start)
    (hsent : state ≠ .openSent) : (c.enter state).carrier.Heeds limit t := by
  rw [carrier_enter]
  exact ⟨hstart, hsent, hc.limit_eq, hc.wrote⟩

/-! ## Steps -/

theorem outlastsClosing_heeds : OutlastsClosing fun c => c.carrier.Heeds limit t where
  enter hc hstate := by
    rcases hstate with rfl | rfl
    · exact heeds_enter hc (by decide) (by decide)
    · exact heeds_enter hc (by decide) (by decide)
  send v := keeps_heeds_send (Performative.fits_close limit v)
  terminate {c} hc := by
    have hended : (c.enter .ended).carrier.Heeds limit t := heeds_enter hc (by decide) (by decide)
    exact ⟨hended.ne_start, hended.ne_openSent, hended.limit_eq, hended.wrote.of_writingSide rfl⟩

/-- A second Open of the peer changes nothing. -/
theorem keeps_heeds_onOpen (v : Open) :
    Action.Keeps (fun c => c.carrier.Heeds limit t) (onOpen v) := by
  intro c hc
  rcases onOpen_cases v c with ⟨hsent, -⟩ | ⟨cause, hopen⟩
  · exact absurd hsent hc.ne_openSent
  · rw [hopen]
    exact hc

theorem keeps_heeds_dispatch (channel : UInt16) (p : Performative) :
    Action.Keeps (fun c => c.carrier.Heeds limit t) (dispatch channel p) := by
  intro c hc
  have hcarry (channel : UInt16) (p : Performative) (hp : p.Suits c.maxFrameSize) :
      Action.Keeps (Carrier.Heeds limit t) (FrameCarrier.carry channel p) :=
    Carrier.keeps_heeds_carry channel (hc.limit_eq ▸ hp)
  cases p with
  | openFrame v => exact keeps_heeds_onOpen v c hc
  | close v => exact outlastsClosing_heeds.onClose c hc
  | begin v => exact leaves_onBegin hcarry hc channel v
  | _ => exact leaves_onSessionFrame hcarry hc channel _

theorem keeps_heeds_poll (wait : Option Nat) :
    Action.Keeps (fun c => c.carrier.Heeds limit t) (poll wait) := fun c hc =>
  leaves_poll (keeps_heeds_receive wait c hc)
    (fun channel p c' _ hc' => keeps_heeds_dispatch channel p c' hc') outlastsClosing_heeds.abort

theorem stable_heeds (limit : UInt32) (t : Transport) :
    Stable fun c => c.carrier.Heeds limit t where
  openUp wait c hc := by
    have hstate : c.state ≠ .start := hc.ne_start
    rw [openUp_of_ne_start hstate]
    exact hc
  close error _ := outlastsClosing_heeds.close (fun _ => keeps_heeds_poll) error
  poll := keeps_heeds_poll
  onSession channel call c hc :=
    leaves_onSession_of_scripted
      (fun channel p hp => Carrier.keeps_heeds_carry channel (hc.limit_eq ▸ hp)) hc
      (Session.scripted_perform call) channel
  addSession hc h := by
    obtain ⟨channel, s, -, -, -, hresult⟩ := addSession_cases h
    rw [hresult]
    exact hc
  release _ _ hc := hc
  evaluate _ hc := hc

/-! ## Courses -/

/-- An Open of the peer that comes in time sets its greatest frame. -/
theorem onOpen_of_openSent {v : Open} (hstate : c.state = .openSent)
    (hleast : leastMaxFrameSize ≤ v.maxFrameSize.getD 4294967295) :
    ∃ c', onOpen v c = .ok () c' ∧ c'.carrier =
      { c.carrier with
        state := .opened
        remoteMaxFrameSize := v.maxFrameSize.getD 4294967295 } := by
  unfold onOpen
  rw [Action.get_bind]
  dsimp only
  rw [if_neg (not_not.2 hstate), if_neg (UInt32.not_lt.2 hleast)]
  exact ⟨_, rfl, carrier_enter .opened _⟩

/-- The poll that takes the peer's Open is where the limit begins to hold. -/
theorem heeds_poll {wait : Option Nat} {channel : UInt16} {v : Open}
    (hreceived : c.received wait = some (channel, .openFrame v)) (hstate : c.state = .openSent)
    (hleast : leastMaxFrameSize ≤ v.maxFrameSize.getD 4294967295) :
    (c.after (.poll wait)).carrier.Heeds
      (min c.carrier.maxFrameSize (v.maxFrameSize.getD 4294967295)) c.carrier.transport := by
  obtain ⟨t, hside, hpoll⟩ := poll_of_received hreceived
  have hsent : ({ c with carrier := { c.carrier with transport := t } } : Connection).state =
      .openSent := hstate
  obtain ⟨c', hopen, hcarrier⟩ := onOpen_of_openSent hsent hleast
  have hc' : c'.carrier.Heeds (min c.carrier.maxFrameSize (v.maxFrameSize.getD 4294967295))
      c.carrier.transport := by
    rw [hcarrier]
    refine ⟨nofun, nofun, rfl, ?_⟩
    exact (Transport.WroteWithin.refl _ _).of_writingSide (congrArg Prod.snd hside)
  have hopened : (Call.poll wait).perform c = .ok () c' := by
    show poll wait c = _
    rw [hpoll]
    show guarded _ (onOpen v) _ = _
    unfold guarded
    rw [hopen]
  unfold after
  rw [hopened]
  exact hc'

/-- What the connection has written since it took the peer's Open fits, all along a course. -/
theorem heeds_of_course {start c' c : Connection} {channel : UInt16} {v : Open}
    {taken : List (Connection × UInt16 × Performative)} (h : Course start taken c')
    (hopen : (c, channel, Performative.openFrame v) ∈ taken) (hstate : c.state = .openSent)
    (hleast : leastMaxFrameSize ≤ v.maxFrameSize.getD 4294967295) :
    c'.carrier.Heeds (min c.carrier.maxFrameSize (v.maxFrameSize.getD 4294967295))
      c.carrier.transport := by
  have hstable := stable_heeds (min c.carrier.maxFrameSize (v.maxFrameSize.getD 4294967295))
    c.carrier.transport
  induction h with
  | start => cases hopen
  | act _ call _ ih => exact hstable.after (ih hopen) call
  | terminate _ ih => exact outlastsClosing_heeds.terminate (ih hopen)
  | @poll taken d _ wait ih =>
    rcases List.mem_append.1 hopen with hbefore | hnow
    · exact hstable.after (ih hbefore) (.poll wait)
    · obtain ⟨x, hx, hsame⟩ := List.mem_map.1 hnow
      obtain ⟨rfl, rfl⟩ := Prod.mk.inj hsame
      exact heeds_poll (Option.mem_toList.1 hx) hstate hleast

/-- Every run has a course, and on every course a connection that has taken the peer's Open has
written frames since that fit, the smaller of both ends' greatest frames being the limit. -/
theorem fits_of_course (start : Connection) :
    (∀ calls, ∃ taken, Course start taken (run calls start)) ∧
      ∀ {taken c'}, Course start taken c' → ∀ {c channel v},
        (c, channel, Performative.openFrame v) ∈ taken → c.state = .openSent →
          leastMaxFrameSize ≤ v.maxFrameSize.getD 4294967295 →
            c.carrier.transport.WroteWithin
              (min c.carrier.maxFrameSize (v.maxFrameSize.getD 4294967295))
              c'.carrier.transport :=
  ⟨fun calls => course_of_run calls start, fun h _ _ _ hopen hstate hleast =>
    (heeds_of_course h hopen hstate hleast).wrote⟩

/-- A connection whose peer is going to announce the least frame size there is. -/
def overNarrow : Connection :=
  overOctets (protocolHeader ++ Transport.wire
    [(0, .performative (.openFrame { containerId := "peer", maxFrameSize := some 512 }))])

/-- A Begin and a Close fit such a peer. -/
theorem fits_of_beginAndClose :
    let c := run [.openUp .zero] overNarrow
    let c' := run [.addSession none, .onSession 0 (.begin .unlimited), .close none .zero]
      (c.after (.poll none))
    c'.state = .closeSent ∧
      c'.carrier.transport.stream.written.length =
        c.carrier.transport.stream.written.length + 43 ∧
      c.carrier.transport.WroteWithin 512 c'.carrier.transport := by
  intro c c'
  have hstate : c.state = .openSent := by decide +kernel
  have hreceived : (c.received none).map
      (fun x => (x.1, match x.2 with | .openFrame v => v.maxFrameSize | _ => none)) =
        some (0, some 512) := by decide +kernel
  refine ⟨by decide +kernel, by decide +kernel, ?_⟩
  have hsent : Course overNarrow [] c := Course.start.act (.openUp .zero) rfl
  have hlimit : c.carrier.maxFrameSize = 1048576 := by decide +kernel
  -- All that has to be computed about `c` is known by now; its value would only be unfolded.
  clear_value c
  obtain ⟨⟨channel, p⟩, hp, hpair⟩ := Option.map_eq_some_iff.1 hreceived
  cases p with
  | openFrame v =>
    have hsize : v.maxFrameSize = some 512 := (Prod.mk.inj hpair).2
    have hopen : (c, channel, Performative.openFrame v) ∈
        [] ++ (c.received none).toList.map (Prod.mk c) := by
      rw [hp]
      exact List.mem_singleton_self _
    have hcourse : Course overNarrow ([] ++ (c.received none).toList.map (Prod.mk c)) c' :=
      (hsent.poll none).run (by decide)
    have hleast : leastMaxFrameSize ≤ v.maxFrameSize.getD 4294967295 := by
      rw [hsize]
      decide
    have hfits := (fits_of_course overNarrow).2 hcourse hopen hstate hleast
    have hleastOfBoth : min 1048576 ((some 512).getD 4294967295) = (512 : UInt32) := by decide
    rw [hlimit, hsize, hleastOfBoth] at hfits
    exact hfits
  | _ => cases hpair

/-- The Close with a description of 600 characters does not fit, but it is written. -/
theorem exceeds_of_longDescription :
    let error : ErrorInfo :=
      { condition := Condition.internalError,
        description := some (String.ofList (List.replicate 600 'x')) }
    let c := run [.openUp .unlimited] overNarrow
    let c' := c.after (.close (some error) .zero)
    c.state = .opened ∧ c.maxFrameSize = 512 ∧ Frame.size (.close { error }) = 658 ∧
      c'.carrier.transport.stream.written =
        c.carrier.transport.stream.written ++ Frame.encodePerformative 0 (.close { error }) := by
  decide +kernel

end Connection

end Amqp
