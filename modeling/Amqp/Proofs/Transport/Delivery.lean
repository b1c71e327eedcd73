import Amqp.Proofs.Stream.Pouring
import Amqp.Proofs.Transport.Receiving

/-!
# Frames across a byte stream

Frames that were written one after another are received one after another, however the octets are
cut and however often reads time out or are interrupted between them.  `Awaits t frames` says that a
transport has exactly these frames before it.  One call of `receive` keeps this (`Awaits.step`): it
takes off the first frame, or it takes nothing and there is less left that could cut it short.  The
run lemmas follow by induction on the calls.
-/

namespace Amqp

namespace Transport

/-! ## Writing frames -/

/-- What the stream of a transport makes of a write. -/
def poured (data : Bytes) (t : Transport) : Poured :=
  pour t.stream.horizon (t.writeTimeout.map (t.stream.now + ·)) t.stream.taken t.stream.now data
    t.stream.writes

/-- A transport after what its stream has made of a write. -/
def withPoured (p : Poured) (t : Transport) : Transport :=
  { t with stream := { t.stream with now := p.now, writes := p.rest, taken := p.taken } }

/-- How a write comes out.  Without a stream it fails; else it comes to what the stream makes of it,
and a fault that is no timeout ends the connected state. -/
inductive WriteSpec (data : Bytes) (t : Transport) : EStateM.Result Halt Transport Unit → Prop
  | closed (hopen : t.isOpen = false) :
      WriteSpec data t (.error (.fault (.closed .transportClosed)) t)
  | done (h : (t.poured data).result = .ok ()) :
      WriteSpec data t (.ok () (t.withPoured (t.poured data)))
  | failed (f : Fault) (h : (t.poured data).result = .error (some f)) :
      WriteSpec data t (.error (.fault f)
        (if f.isTimeout then t.withPoured (t.poured data)
          else { t.withPoured (t.poured data) with isConnected := false }))
  | stalled (h : (t.poured data).result = .error none) :
      WriteSpec data t (.error .stalled (t.withPoured (t.poured data)))

theorem write_of_not_isOpen {t : Transport} (h : t.isOpen = false) (data : Bytes) :
    write data t = .error (.fault (.closed .transportClosed)) t := by
  unfold write
  rw [h]
  rfl

theorem write_spec (data : Bytes) (t : Transport) : WriteSpec data t (write data t) := by
  cases hopen : t.isOpen with
  | false =>
    rw [write_of_not_isOpen hopen]
    exact .closed hopen
  | true =>
    have hno : ¬ (!t.isOpen) = true := by simp [hopen]
    unfold write
    rw [if_neg hno]
    unfold watched
    dsimp only
    cases hresult : (t.poured data).result with
    | ok _ =>
      have hdone := WriteSpec.done hresult
      unfold poured at hresult
      rw [hresult]
      exact hdone
    | error cause =>
      cases cause with
      | none =>
        have hstalled := WriteSpec.stalled hresult
        unfold poured at hresult
        rw [hresult]
        exact hstalled
      | some f =>
        have hfailed := WriteSpec.failed f hresult
        unfold poured at hresult
        rw [hresult]
        exact hfailed

theorem written_of_write {t t' : Transport} {data : Bytes} (h : write data t = .ok () t') :
    t'.stream.written = t.stream.written ++ data := by
  have hspec := write_spec data t
  rw [h] at hspec
  cases hspec with
  | done hok => exact flatten_taken_pour _ _ _ _ _ _ hok

theorem isSessionLocal_of_write {data : Bytes} {t t' : Transport} {f : Fault}
    (h : write data t = .error (.fault f) t') : f.isSessionLocal = false := by
  have hspec := write_spec data t
  rw [h] at hspec
  cases hspec with
  | closed hopen => rfl
  | failed f hresult => exact isSessionLocal_of_pour _ _ _ _ _ _ hresult

/-- Sends frames one after another. -/
def sendAll : List (UInt16 × Frame) → Action Transport Unit
  | [] => pure ()
  | (channel, frame) :: frames => do
    send channel frame
    sendAll frames

/-- The octets of frames one after another. -/
def wire (frames : List (UInt16 × Frame)) : Bytes := frames.flatMap fun x => x.2.encode x.1

theorem written_of_sendAll {frames : List (UInt16 × Frame)} {t t' : Transport}
    (h : sendAll frames t = .ok () t') :
    t'.stream.written = t.stream.written ++ wire frames := by
  induction frames generalizing t with
  | nil =>
    obtain rfl : t = t' := by simpa [sendAll, pure, EStateM.pure] using h
    simp [wire]
  | cons x frames ih =>
    obtain ⟨channel, frame⟩ := x
    rw [sendAll] at h
    cases hsend : send channel frame t with
    | error halt t₁ =>
      rw [Action.bind_of_error hsend] at h
      cases h
    | ok u t₁ =>
      rw [Action.bind_of_ok hsend] at h
      rw [ih h, written_of_write hsend, wire, wire, List.flatMap_cons, List.append_assoc]

/-! ## One call -/

/-- A call of `receive`: how long before it nobody reads, and the timeout that it is given. -/
structure Call where
  pause : Nat := 0
  wait : Option Nat := none

/-- Whether time passes with a call that runs out of time. -/
def Call.Passes (c : Call) (t : Transport) : Prop :=
  0 < c.pause ∨ (c.wait <|> t.readTimeout) ≠ some 0

/-- Lets time pass without reading. -/
def elapse (milliseconds : Nat) (t : Transport) : Transport :=
  { t with stream := { t.stream with now := t.stream.now + milliseconds } }

/-- What a frame is received as when it was sent on a given channel. -/
def arrival (x : UInt16 × Frame) : UInt16 × Frame := (x.2.arrivalChannel x.1, x.2)

/-- A transport that has given frames before it. -/
structure Awaits (t : Transport) (frames : List (UInt16 × Frame)) : Prop where
  isReceiving : t.IsReceiving
  incoming_eq : t.incoming = wire frames
  decodable : ∀ x ∈ frames, x.2.IsDecodable
  fits : ∀ x ∈ frames, (x.2.encode x.1).length ≤ t.maxFrameSize.toNat

/-- How often a call can still give nothing. -/
def work (t : Transport) : Nat := workload t.stream.now t.stream.reads

theorem latest_elapse_le (milliseconds : Nat) (t : Transport) :
    (t.elapse milliseconds).latest ≤ t.latest + milliseconds := by
  have h := pauses_anti (Nat.le_add_right t.stream.now milliseconds) t.stream.reads
  unfold latest elapse
  dsimp only
  omega

/-- What a call that gives the frames `done`, one or none, leaves of all frames. -/
structure Step (c : Call) (t : Transport) (done later : List (UInt16 × Frame)) (t' : Transport) :
    Prop where
  awaits : Awaits t' later
  readTimeout : t'.readTimeout = t.readTimeout
  horizon : t'.stream.horizon = t.stream.horizon
  latest_le : done ++ later ≠ [] → t'.latest ≤ t.latest + c.pause
  less : done ++ later ≠ [] → c.Passes t →
    later.length + t'.work < (done ++ later).length + t.work

theorem Awaits.elapse {t : Transport} {frames : List (UInt16 × Frame)} (h : Awaits t frames)
    (milliseconds : Nat) : Awaits (t.elapse milliseconds) frames :=
  ⟨⟨h.isReceiving.isOpen, h.isReceiving.isConnected, h.isReceiving.soft⟩, h.incoming_eq,
    h.decodable, h.fits⟩

/-- One call gives the first of the frames or none of them, or waits beyond the observed time. -/
theorem Awaits.step {t : Transport} {frames : List (UInt16 × Frame)} (h : Awaits t frames)
    (c : Call) :
    (∃ got done later t', receive c.wait (t.elapse c.pause) = .ok got t' ∧
      frames = done ++ later ∧ got.toList = done.map arrival ∧ Step c t done later t') ∨
      ∃ t', receive c.wait (t.elapse c.pause) = .error .stalled t' ∧ t'.isConnected ∧
        (frames ≠ [] → t.stream.horizon < t.latest + c.pause) := by
  have helapse := h.elapse c.pause
  have hlatest := latest_elapse_le c.pause t
  cases frames with
  | nil =>
    have hreceipt := receive_nothing c.wait helapse.isReceiving h.incoming_eq
    rcases hreceipt with ⟨_, _, _, _, hP, _⟩ | ⟨t', hr, hkept, hbefore, _⟩ | ⟨t', hr, hkept, _⟩
    · exact hP.elim
    · refine Or.inl ⟨none, [], [], t', hr, rfl, rfl, ?_⟩
      exact ⟨⟨hkept.isReceiving, hbefore, by simp, by simp⟩, hkept.readTimeout, hkept.horizon,
        fun hne => absurd rfl hne, fun hne => absurd rfl hne⟩
    · exact Or.inr ⟨t', hr, hkept.isReceiving.isConnected, fun hne => absurd rfl hne⟩
  | cons x frames =>
    obtain ⟨channel, frame⟩ := x
    have hbefore : (t.elapse c.pause).incoming = frame.encode channel ++ wire frames :=
      h.incoming_eq
    obtain ⟨hframe, hframes⟩ := List.forall_mem_cons.1 h.decodable
    obtain ⟨hfit, hfits⟩ := List.forall_mem_cons.1 h.fits
    have hreceipt := receive_frame c.wait helapse.isReceiving hframe hbefore hfit
    have henough : (frame.encode channel).length ≤ (t.elapse c.pause).incoming.length := by
      rw [hbefore, List.length_append]
      omega
    rcases hreceipt with ⟨got, t', hr, hkept, ⟨rfl, hrest⟩, hlatest', hwork⟩ |
      ⟨t', hr, hkept, hrest, hprogress⟩ | ⟨t', hr, hkept, -, hstall⟩
    · have hnow := Nat.le_trans (Nat.le_add_right t.stream.now c.pause) hkept.now_le
      refine Or.inl ⟨_, [(channel, frame)], frames, t', hr, rfl, rfl, ?_⟩
      refine ⟨⟨hkept.isReceiving, hrest, hframes, ?_⟩, hkept.readTimeout, hkept.horizon,
        fun _ => Nat.le_trans hlatest' hlatest, fun _ _ => ?_⟩
      · rw [hkept.maxFrameSize]
        exact hfits
      · have hless : t'.work ≤ t.work :=
          Nat.le_trans (hwork t'.stream.now) (workload_anti hnow t.stream.reads)
        rw [List.length_append, List.length_singleton]
        omega
    · obtain ⟨hlatest', hless⟩ := hprogress henough
      refine Or.inl ⟨none, [], (channel, frame) :: frames, t', hr, rfl, rfl, ?_⟩
      refine ⟨⟨hkept.isReceiving, ?_, h.decodable, ?_⟩, hkept.readTimeout, hkept.horizon,
        fun _ => Nat.le_trans hlatest' hlatest, fun _ hpasses => ?_⟩
      · rw [hrest]
        exact h.incoming_eq
      · rw [hkept.maxFrameSize]
        exact h.fits
      · have hstrict := hless t.stream.now (Nat.le_add_right _ _) fun timeout htimeout => ?_
        · exact Nat.add_lt_add_left hstrict _
        · have hpositive : 0 < c.pause ∨ timeout ≠ 0 := by
            rcases hpasses with hpause | hwait
            · exact Or.inl hpause
            · exact Or.inr fun hzero => hwait (hzero ▸ htimeout)
          change t.stream.now < t.stream.now + c.pause + timeout
          omega
    · exact Or.inr ⟨t', hr, hkept.isReceiving.isConnected,
        fun _ => Nat.lt_of_lt_of_le (hstall henough) hlatest⟩

/-! ## Runs of calls -/

/-- Calls `receive` again and again, and collects the frames. -/
def receiveAll : List Call → Action Transport (List (UInt16 × Frame))
  | [] => pure []
  | c :: calls => do
    modify (elapse c.pause)
    let got ← receive c.wait
    return got.toList ++ (← receiveAll calls)

theorem receiveAll_cons (c : Call) (calls : List Call) (t : Transport) :
    receiveAll (c :: calls) t =
      match receive c.wait (t.elapse c.pause) with
      | .error halt t' => .error halt t'
      | .ok got t' =>
        match receiveAll calls t' with
        | .error halt t'' => .error halt t''
        | .ok frames t'' => .ok (got.toList ++ frames) t'' := by
  rw [receiveAll]
  change (receive c.wait >>= _) (t.elapse c.pause) = _
  cases hreceive : receive c.wait (t.elapse c.pause) with
  | error halt t' => exact Action.bind_of_error hreceive
  | ok got t' =>
    rw [Action.bind_of_ok hreceive]
    dsimp only
    cases hrest : receiveAll calls t' with
    | error halt t'' => exact Action.bind_of_error hrest
    | ok frames t'' => exact Action.bind_of_ok hrest

/-- However many calls there are, they give the first of the frames and leave the others. -/
theorem Awaits.receiveAll {t : Transport} {frames : List (UInt16 × Frame)} (h : Awaits t frames)
    (calls : List Call) :
    (∃ done later t', receiveAll calls t = .ok (done.map arrival) t' ∧ frames = done ++ later ∧
      Awaits t' later) ∨
    ∃ t', Transport.receiveAll calls t = .error .stalled t' ∧ t'.isConnected := by
  induction calls generalizing t frames with
  | nil => exact Or.inl ⟨[], frames, t, rfl, rfl, h⟩
  | cons c calls ih =>
    rw [receiveAll_cons]
    rcases h.step c with ⟨got, done, later, t', hr, rfl, hgot, hstep⟩ | ⟨t', hr, hconnected, -⟩
    · rw [hr]
      rcases ih hstep.awaits with ⟨done', later', t'', hr', rfl, hawaits⟩ | ⟨t'', hr', hconnected⟩
      · refine Or.inl ⟨done ++ done', later', t'', ?_, (List.append_assoc _ _ _).symm, hawaits⟩
        simp only [hr', hgot, List.map_append]
      · refine Or.inr ⟨t'', ?_, hconnected⟩
        simp only [hr']
    · refine Or.inr ⟨t', ?_, hconnected⟩
      rw [hr]

/-- Enough calls give all frames. -/
theorem Awaits.receiveAll_eq {t : Transport} {frames : List (UInt16 × Frame)} (h : Awaits t frames)
    {calls : List Call} (hpasses : ∀ c ∈ calls, c.Passes t)
    (hcalls : frames.length + t.work ≤ calls.length)
    (hhorizon : t.latest + (calls.map Call.pause).sum ≤ t.stream.horizon) :
    ∃ k ≤ calls.length, ∃ t',
      Transport.receiveAll (calls.take k) t = .ok (frames.map arrival) t' ∧ Awaits t' [] := by
  induction calls generalizing t frames with
  | nil =>
    have hnil : frames = [] := List.length_eq_zero_iff.1 (by
      rw [List.length_nil] at hcalls
      omega)
    subst hnil
    exact ⟨0, Nat.le_refl 0, t, rfl, h⟩
  | cons c calls ih =>
    by_cases hframes : frames = []
    · subst hframes
      exact ⟨0, Nat.zero_le _, t, rfl, h⟩
    · rw [List.map_cons, List.sum_cons] at hhorizon
      obtain ⟨hc, hrest⟩ := List.forall_mem_cons.1 hpasses
      rcases h.step c with ⟨got, done, later, t', hr, rfl, hgot, hstep⟩ | ⟨t', hr, -, hstall⟩
      · have hless := hstep.less hframes hc
        have hlatest := hstep.latest_le hframes
        rw [List.length_cons] at hcalls
        have hrest' : ∀ c ∈ calls, c.Passes t' := by
          intro c hc
          have hpass := hrest c hc
          unfold Call.Passes at hpass ⊢
          rwa [hstep.readTimeout]
        obtain ⟨k, hk, t'', hr', hawaits⟩ := ih hstep.awaits hrest' (by omega)
          (by rw [hstep.horizon]; omega)
        refine ⟨k + 1, Nat.succ_le_succ hk, t'', ?_, hawaits⟩
        rw [List.take_succ_cons, receiveAll_cons, hr]
        simp only [hr', hgot, List.map_append]
      · have hlate := hstall hframes
        omega

/-- Frames that were sent one after another, and whose octets are before a connected transport in
whatever pieces, with pauses and interruptions anywhere between them, are received as they were
sent. No number of calls ends the connected state or gives anything but the first of the frames,
with the octets of the others still there.  When time passes with each call, a bounded number of
calls gives all of them, if the observed time is long enough for the pauses. -/
theorem receiveAll_of_sendAll {s s' t : Transport} {frames : List (UInt16 × Frame)}
    (hsent : sendAll frames s = .ok () s')
    (hcut : s'.stream.written = s.stream.written ++ t.incoming) (ht : t.IsReceiving)
    (hdecodable : ∀ x ∈ frames, x.2.IsDecodable)
    (hfits : ∀ x ∈ frames, (x.2.encode x.1).length ≤ t.maxFrameSize.toNat) :
    (∀ calls : List Call,
      (∃ done later t', receiveAll calls t = .ok (done.map arrival) t' ∧ frames = done ++ later ∧
        t'.isConnected ∧ t'.incoming = wire later) ∨
      ∃ t', receiveAll calls t = .error .stalled t' ∧ t'.isConnected) ∧
    ∀ calls : List Call, (∀ c ∈ calls, c.Passes t) → frames.length + t.work ≤ calls.length →
      t.latest + (calls.map Call.pause).sum ≤ t.stream.horizon →
      ∃ k ≤ calls.length, ∃ t', receiveAll (calls.take k) t = .ok (frames.map arrival) t' ∧
        t'.isConnected ∧ t'.incoming = [] := by
  have hincoming : t.incoming = wire frames :=
    List.append_cancel_left (hcut.symm.trans (written_of_sendAll hsent))
  have hawaits : Awaits t frames := ⟨ht, hincoming, hdecodable, hfits⟩
  constructor
  · intro calls
    rcases hawaits.receiveAll calls with ⟨done, later, t', hr, hsplit, hlater⟩ | hstalled
    · exact Or.inl ⟨done, later, t', hr, hsplit, hlater.isReceiving.isConnected, hlater.incoming_eq⟩
    · exact Or.inr hstalled
  · intro calls hpasses hcalls hhorizon
    obtain ⟨k, hk, t', hr, hnothing⟩ := hawaits.receiveAll_eq hpasses hcalls hhorizon
    exact ⟨k, hk, t', hr, hnothing.isReceiving.isConnected, hnothing.incoming_eq⟩

/-- A heartbeat and a Close, cut inside their headers, with a pause beyond the read timeout and
interruptions in between. -/
theorem receiveAll_heartbeat_close :
    let reads := [.octets [0, 0, 0], .delay 30, .octets [8, 2, 0, 0, 0, 0, 0, 0],
      .fault .interrupted, .octets [12, 2, 0, 0, 5, 0], .fault .timedOut, .octets [83, 24, 69]]
    let t : Transport :=
      { host := "", port := 0, tls := none, readTimeout := some 20, writeTimeout := none,
        toleratesInterrupt := true, stream := { horizon := 1000, reads }, isOpen := true,
        isConnected := true }
    ∃ k ≤ 50, ∃ t', receiveAll ((List.replicate 50 {}).take k) t =
      .ok [(0, .heartbeat), (5, .performative (.close {}))] t' ∧ t'.isConnected ∧
        t'.incoming = [] := by
  intro reads t
  have hclose : Performative.decode (Performative.close {}).encode = .ok (.close {}) :=
    Performative.decode_encode ⟨List.forall_mem_nil _, nofun⟩ (by decide)
  have hsent : sendAll [(0, .heartbeat), (5, .performative (.close {}))] t =
      .ok () { t with stream := { t.stream with
        taken := [[0, 0, 0, 12, 2, 0, 0, 5, 0, 83, 24, 69], [0, 0, 0, 8, 2, 0, 0, 0]] } } := rfl
  refine (receiveAll_of_sendAll hsent (by decide) ⟨rfl, rfl, by simp [t, reads, ReadEvent.IsSoft]⟩
    ?_ ?_).2 (List.replicate 50 {}) ?_ ?_ ?_
  · simp [Frame.IsDecodable, hclose]
  · simp
    decide
  · intro c hc
    rw [List.eq_of_mem_replicate hc]
    exact Or.inr (by decide)
  · decide
  · decide

end Transport

end Amqp
