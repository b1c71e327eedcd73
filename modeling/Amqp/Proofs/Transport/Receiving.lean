import Amqp.Proofs.Performative.RoundTrip
import Amqp.Proofs.Transport.Reading

/-!
# Receiving one frame

When the octets before a transport begin with a frame that it accepts, receiving gives this frame,
or nothing while all of its octets are still there, or it stalls (`receive_frame`).  When there are
no octets, receiving gives nothing or stalls (`receive_nothing`).
-/

namespace Amqp

namespace Frame

/-- The octets behind the header of a frame. -/
def body : Frame → Bytes
  | heartbeat => []
  | performative p => p.encode

/-- The channel on which a frame arrives when it goes out on a given one: heartbeats always use
channel 0. -/
def arrivalChannel (channel : UInt16) : Frame → UInt16
  | heartbeat => 0
  | performative _ => channel

/-- Whether a frame can be told from its octets. -/
def IsDecodable : Frame → Prop
  | heartbeat => True
  | performative p => Performative.decode p.encode = .ok p

theorem encode_eq (channel : UInt16) (frame : Frame) :
    frame.encode channel = leader frame.body.length ++
      (Word.encode 2 (frame.arrivalChannel channel).toNat ++ frame.body) := by
  cases frame with
  | heartbeat => rfl
  | performative p => rfl

theorem length_encode (channel : UInt16) (frame : Frame) :
    (frame.encode channel).length = frame.body.length + frameHeaderSize := by
  rw [encode_eq, List.length_append, List.length_append, length_leader, Word.length_encode,
    frameHeaderSize]
  omega

theorem encode_performative_ne_nil (p : Performative) : p.encode ≠ [] := by
  have h := Value.encode_ne_nil p.toValue
  rw [Performative.encode]
  exact fun hnil => h (List.append_eq_nil_iff.1 hnil).1

end Frame

theorem FrameHeader.isEmpty_ofBody {n : Nat} (h : n + frameHeaderSize < UInt32.size)
    (channel : UInt16) : (ofBody n channel).isEmpty = decide (n = 0) := by
  have hsize := toNat_size_ofBody h channel
  have hzero : (ofBody n channel).size ≠ 0 := by
    intro hzero
    rw [hzero] at hsize
    exact absurd hsize.symm (Nat.succ_ne_zero _)
  rw [isEmpty, hsize, beq_eq_false_iff_ne.2 hzero, Bool.false_or]
  by_cases hn : n = 0
  · subst hn
    rfl
  · rw [decide_eq_false hn]
    exact beq_eq_false_iff_ne.2 (by omega)

namespace Transport

variable {wait : Option Nat} {t : Transport}

/-! ## Reading a frame -/

/-- Reads what stands behind a raw header. -/
def takeBehind (ceiling : Nat) (wait : Option Nat) (raw : Bytes) :
    Action Transport (Bytes × FrameHeader × Option Bytes) := do
  let header ← Action.ofExcept (FrameHeader.ofBytes raw)
  let limit := (← get).maxFrameSize
  if limit < header.size then
    Action.raise (.malformed (.frameTooLarge header.size header.channel limit))
  if header.isEmpty then return (raw, header, none)
  if header.type ≠ amqpFrameType then
    Action.raise (.malformed (.unsupportedFrameType header.type header.channel))
  let skip ← Action.ofExcept header.extendedLength
  let read ← takePieces ceiling wait header.bodyLength header.bodyLength raw
  return (raw, header, some (read.drop (frameHeaderSize + skip)))

theorem takeFrame_eq (ceiling : Nat) (wait : Option Nat) :
    takeFrame ceiling wait = take frameHeaderSize true wait >>= takeBehind ceiling wait := rfl

/-- What is read behind the header of a frame that fits. -/
theorem takeBehind_eq {ceiling n : Nat} {raw : Bytes} {channel : UInt16}
    (hraw : FrameHeader.ofBytes raw = .ok (.ofBody n channel))
    (hfits : n + frameHeaderSize ≤ t.maxFrameSize.toNat) :
    takeBehind ceiling wait raw t =
      if n = 0 then .ok (raw, .ofBody n channel, none) t
      else
        (takePieces ceiling wait n n raw >>= fun read =>
          pure (raw, .ofBody n channel, some (read.drop frameHeaderSize))) t := by
  have hn : n + frameHeaderSize < UInt32.size := Nat.lt_of_le_of_lt hfits t.maxFrameSize.toNat_lt
  have hlimit : ¬ t.maxFrameSize < (FrameHeader.ofBody n channel).size := by
    rw [UInt32.lt_iff_toNat_lt, FrameHeader.toNat_size_ofBody hn]
    omega
  have htype : ¬(FrameHeader.ofBody n channel).type ≠ amqpFrameType := fun h => h rfl
  have hlength : (FrameHeader.ofBody n channel).bodyLength = n := by
    rw [FrameHeader.bodyLength, FrameHeader.toNat_size_ofBody hn, Nat.add_sub_cancel]
  unfold takeBehind
  rw [hraw, Action.ofExcept_ok_bind, Action.get_bind]
  dsimp only
  rw [if_neg hlimit, FrameHeader.isEmpty_ofBody hn, FrameHeader.extendedLength_ofBody hn, hlength,
    if_neg htype]
  by_cases hzero : n = 0
  · rw [if_pos (decide_eq_true hzero), if_pos hzero]
    rfl
  · rw [if_neg (by rwa [decide_eq_true_eq]), if_neg hzero, Action.ofExcept_ok_bind]
    rfl

/-- The body of a frame is read whole, or its header is put back. -/
theorem takeBehind_spec (wait : Option Nat) (ht : t.IsReceiving) {raw body rest : Bytes}
    {channel : UInt16} (hlength : raw.length = frameHeaderSize)
    (hraw : FrameHeader.ofBytes raw = .ok (.ofBody body.length channel)) (hbody : body ≠ [])
    (hbefore : t.incoming = body ++ rest)
    (hfits : body.length + frameHeaderSize ≤ t.maxFrameSize.toNat) :
    ReadSpec wait (body.length + frameHeaderSize) (raw ++ t.incoming) t
      (fun r t' => r = (raw, .ofBody body.length channel, some body) ∧ t'.incoming = rest)
      (takeBehind readCeiling wait raw t) := by
  have hne : body.length ≠ 0 := fun h => hbody (List.length_eq_zero_iff.1 h)
  rw [takeBehind_eq hraw hfits, if_neg hne]
  have hceiling : 0 < readCeiling := by decide
  have hpieces := takePieces_spec hceiling wait (Nat.le_refl body.length) raw ht
  rw [hlength, Nat.add_comm frameHeaderSize] at hpieces
  refine hpieces.bind fun read t' hkept hread => ?_
  obtain ⟨hsize, hread⟩ := hread
  rw [hbefore, ← List.append_assoc] at hread
  have hwhole : read.length = (raw ++ body).length := by
    rw [hsize, List.length_append, hlength, Nat.add_comm]
  obtain ⟨rfl, hrest⟩ := List.append_inj hread hwhole
  have hdrop : (raw ++ body).drop frameHeaderSize = body := List.drop_left' hlength
  exact readSpec_pure hkept.isReceiving ⟨by rw [hdrop], hrest⟩

/-- What a read frame must be to mean a given one. -/
def Carries (channel : UInt16) (frame : Frame) (r : Bytes × FrameHeader × Option Bytes) : Prop :=
  r.2.1.channel = frame.arrivalChannel channel ∧ decodeBody r.1 r.2.2 = .ok frame

theorem decodeBody_heartbeat {channel : UInt16} {raw : Bytes}
    (hraw : FrameHeader.ofBytes raw = .ok (.ofBody 0 channel)) :
    decodeBody raw none = .ok .heartbeat := by
  have hempty : (FrameHeader.ofBody 0 channel).isEmpty = true := by
    rw [FrameHeader.isEmpty_ofBody (by decide)]
    rfl
  simp only [decodeBody, Frame.ofHeader, hraw, bind, Except.bind, hempty, if_true]
  rfl

/-- A frame at the front is read whole, or stays there. -/
theorem takeFrame_spec (wait : Option Nat) (ht : t.IsReceiving) {channel : UInt16} {frame : Frame}
    {rest : Bytes} (hdecodable : frame.IsDecodable)
    (hbefore : t.incoming = frame.encode channel ++ rest)
    (hfits : (frame.encode channel).length ≤ t.maxFrameSize.toNat) :
    ReadSpec wait (frame.encode channel).length t.incoming t
      (fun r t' => Carries channel frame r ∧ t'.incoming = rest)
      (takeFrame readCeiling wait t) := by
  rw [Frame.length_encode] at hfits ⊢
  have hn := Nat.lt_of_le_of_lt hfits t.maxFrameSize.toNat_lt
  rw [takeFrame_eq]
  have hhead := take_spec frameHeaderSize true wait ht
  refine (hhead.mono (by omega) fun _ _ _ h => h).bind fun raw t₁ hkept hraw => ?_
  obtain ⟨hlength, htogether⟩ := hraw
  have hraw := htogether
  rw [hbefore, Frame.encode_eq, ← List.append_assoc, List.append_assoc _ _ rest] at hraw
  have hheader : (Frame.leader frame.body.length ++
      Word.encode 2 (frame.arrivalChannel channel).toNat).length = frameHeaderSize := by
    rw [List.length_append, Frame.length_leader, Word.length_encode, frameHeaderSize]
  obtain ⟨rfl, hbehind⟩ := List.append_inj hraw (hlength.trans hheader.symm)
  have hof := FrameHeader.ofBytes_leader hn (frame.arrivalChannel channel) []
  rw [List.append_nil] at hof
  have hfits₁ : frame.body.length + frameHeaderSize ≤ t₁.maxFrameSize.toNat := by
    rw [hkept.maxFrameSize]
    exact hfits
  cases frame with
  | heartbeat =>
    have hnone : Frame.heartbeat.body.length = 0 := rfl
    rw [takeBehind_eq hof hfits₁, if_pos hnone]
    exact readSpec_pure hkept.isReceiving ⟨⟨rfl, decodeBody_heartbeat hof⟩, hbehind⟩
  | performative p =>
    have hbody : (Frame.performative p).body ≠ [] := Frame.encode_performative_ne_nil p
    have hread := takeBehind_spec wait hkept.isReceiving hlength hof hbody hbehind hfits₁
    rw [htogether] at hread
    refine hread.mono (Nat.le_refl _) ?_
    rintro _ t' - ⟨rfl, hrest⟩
    refine ⟨⟨rfl, ?_⟩, hrest⟩
    exact congrArg (Frame.performative <$> ·) hdecodable

/-- Without octets no frame is read. -/
theorem takeFrame_nothing (ht : t.IsReceiving) (hbefore : t.incoming = []) :
    ReadSpec wait frameHeaderSize [] t (fun _ _ => False) (takeFrame readCeiling wait t) := by
  have hhead := take_spec frameHeaderSize true wait ht
  rw [hbefore] at hhead
  rw [takeFrame_eq]
  refine hhead.bind fun raw t' _ hraw => ?_
  obtain ⟨hlength, hraw⟩ := hraw
  rw [(List.append_eq_nil_iff.1 hraw).1] at hlength
  cases hlength

/-! ## Receiving -/

/-- What receiving does with `before` in front of a transport: it gives a frame of which `P` holds,
it gives nothing and leaves all octets, or it stalls. -/
def ReceiptSpec (wait : Option Nat) (needed : Nat) (before : Bytes) (t : Transport)
    (P : UInt16 × Frame → Transport → Prop)
    (r : EStateM.Result Halt Transport (Option (UInt16 × Frame))) : Prop :=
  (∃ frame t', r = .ok (some frame) t' ∧ Kept t t' ∧ P frame t' ∧ t'.latest ≤ t.latest ∧
    ∀ n, workload n t'.stream.reads ≤ workload n t.stream.reads) ∨
  (∃ t', r = .ok none t' ∧ Kept t t' ∧ t'.incoming = before ∧
    (needed ≤ before.length → t'.latest ≤ t.latest ∧
      ∀ n ≤ t.stream.now,
        (∀ timeout, (wait <|> t.readTimeout) = some timeout → n < t.stream.now + timeout) →
        workload t'.stream.now t'.stream.reads < workload n t.stream.reads)) ∨
  ∃ t', r = .error .stalled t' ∧ Kept t t' ∧ t'.incoming = before ∧
    (needed ≤ before.length → t.stream.horizon < t.latest)

theorem receive_spec {needed : Nat} {before : Bytes}
    {P : Bytes × FrameHeader × Option Bytes → Transport → Prop}
    {Q : UInt16 × Frame → Transport → Prop}
    (h : ReadSpec wait needed before t P (takeFrame readCeiling wait t))
    (hPQ : ∀ r t', P r t' →
      ∃ frame, decodeBody r.1 r.2.2 = .ok frame ∧ Q (r.2.1.channel, frame) t') :
    ReceiptSpec wait needed before t Q (receive wait t) := by
  have hwatched := h.watched
  have hraw : readRaw wait t =
      match watched (takeFrame readCeiling wait) t with
      | .ok r t => .ok (r.1, r.2.1.channel, r.2.2) t
      | .error halt t => .error halt t := by
    unfold readRaw
    cases htake : watched (takeFrame readCeiling wait) t with
    | ok r t' => exact Action.bind_of_ok htake
    | error halt t' => exact Action.bind_of_error htake
  unfold receive
  rw [hraw]
  match watched (takeFrame readCeiling wait) t, hwatched with
  | .ok r t', ⟨hkept, hP, hrest⟩ =>
    obtain ⟨frame, hdecode, hQ⟩ := hPQ r t' hP
    simp only [hdecode]
    exact Or.inl ⟨_, t', rfl, hkept, hQ, hrest⟩
  | .error (.fault f) t', ⟨hkept, hf, hrest⟩ =>
    subst hf
    exact Or.inr (Or.inl ⟨t', rfl, hkept, hrest⟩)
  | .error .stalled t', hstalled => exact Or.inr (Or.inr ⟨t', rfl, hstalled⟩)

/-- Receiving with a frame in front. -/
theorem receive_frame (wait : Option Nat) (ht : t.IsReceiving) {channel : UInt16} {frame : Frame}
    {rest : Bytes} (hdecodable : frame.IsDecodable)
    (hbefore : t.incoming = frame.encode channel ++ rest)
    (hfits : (frame.encode channel).length ≤ t.maxFrameSize.toNat) :
    ReceiptSpec wait (frame.encode channel).length t.incoming t
      (fun r t' => r = (frame.arrivalChannel channel, frame) ∧ t'.incoming = rest)
      (receive wait t) := by
  have hread := takeFrame_spec wait ht hdecodable hbefore hfits
  refine receive_spec hread fun r t' h => ?_
  obtain ⟨⟨hchannel, hdecode⟩, hrest⟩ := h
  exact ⟨frame, hdecode, by rw [hchannel], hrest⟩

/-- Receiving without octets in front. -/
theorem receive_nothing (wait : Option Nat) (ht : t.IsReceiving) (hbefore : t.incoming = []) :
    ReceiptSpec wait frameHeaderSize [] t (fun _ _ => False) (receive wait t) :=
  receive_spec (takeFrame_nothing ht hbefore) fun _ _ h => h.elim

end Transport

end Amqp
