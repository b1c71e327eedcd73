import Amqp.Frame
import Amqp.Proofs.Performative.Kinds
import Amqp.Proofs.Value.Decoded

/-!
# Reading performatives back

A representable performative is recovered from its frame body, with the payload of a transfer, and
the header in front of the body tells its real length (`ofBytes_leader`).  Whatever is decoded from
a frame body is representable, and so survives being encoded and decoded again.
-/

namespace Amqp

namespace Performative

/-- The number that describes a performative. -/
def code : Performative → UInt64
  | openFrame _ => Descriptor.openFrame
  | begin _ => Descriptor.begin
  | attach _ => Descriptor.attach
  | flow _ => Descriptor.flow
  | transfer _ => Descriptor.transfer
  | disposition _ => Descriptor.disposition
  | detach _ => Descriptor.detach
  | endFrame _ => Descriptor.endFrame
  | close _ => Descriptor.close

theorem descriptorCode?_toValue (p : Performative) : p.toValue.descriptorCode? = some p.code := by
  cases p <;> rfl

/-! ## Decoding what was encoded -/

theorem ofValue_toValue {p : Performative} (h : p.defaultOutcome ≠ some .null) :
    ofValue p.code p.toValue p.payload = .ok p := by
  cases p with
  | openFrame o => exact congrArg (openFrame <$> ·) (Open.ofValue_toValue o)
  | begin b => exact congrArg (begin <$> ·) (Begin.ofValue_toValue b)
  | attach a => exact congrArg (attach <$> ·) (Attach.ofValue_toValue h)
  | flow f => exact congrArg (flow <$> ·) (Flow.ofValue_toValue f)
  | transfer t => exact congrArg (transfer <$> ·) (Transfer.ofValue_toValue t)
  | disposition d => exact congrArg (disposition <$> ·) (Disposition.ofValue_toValue d)
  | detach d => exact congrArg (detach <$> ·) (Detach.ofValue_toValue d)
  | endFrame e => exact congrArg (endFrame <$> ·) (End.ofValue_toValue e)
  | close c => exact congrArg (close <$> ·) (Close.ofValue_toValue c)

theorem isRegular_toValue {p : Performative} (h : Regular p.values) : p.toValue.IsRegular := by
  cases p with
  | openFrame o => exact Open.isRegular_toValue h
  | begin b => exact Begin.isRegular_toValue h
  | attach a => exact Attach.isRegular_toValue h
  | flow f => exact Flow.isRegular_toValue h
  | transfer t => exact Transfer.isRegular_toValue h
  | disposition d => exact Disposition.isRegular_toValue h
  | detach d => exact Detach.isRegular_toValue h
  | endFrame e => exact isRegular_composite (List.forall_mem_singleton.2 (isRegular_error h))
  | close c => exact isRegular_composite (List.forall_mem_singleton.2 (isRegular_error h))

/-- Only transfers have octets behind them. -/
theorem takesPayload_or_isEmpty_payload (p : Performative) :
    (p.takesPayload || p.payload.isEmpty) = true := by
  cases p <;> rfl

/-- A representable performative is recovered from its frame body. -/
theorem decode_encode {p : Performative} (h : p.IsRepresentable)
    (hlength : p.encode.length < UInt32.size) : decode p.encode = .ok p := by
  have hvalue : p.toValue.encode.length < UInt32.size := by
    rw [encode, List.length_append] at hlength
    omega
  have hdecode := Value.decode_encode_append (isRegular_toValue h.1) hvalue p.payload
  unfold decode encode
  rw [hdecode]
  simp only [Except.mapError, bind, Except.bind, descriptorCode?_toValue, ofValue_toValue h.2,
    takesPayload_or_isEmpty_payload, if_true]
  rfl

/-! ## What is decoded -/

theorem exists_of_map_eq_ok {α β : Type} {f : α → β} {x : Except Fault α} {b : β}
    (h : f <$> x = .ok b) : ∃ a, x = .ok a ∧ f a = b := by
  cases x with
  | error fault => cases h
  | ok a => exact ⟨a, rfl, Except.ok.inj h⟩

/-- A performative of one kind, in which only some values matter. -/
theorem isRepresentable_of_map {α : Type} {kind : α → Performative} {name : String} {code : UInt64}
    {read : Fields α} {v : Value} {p : Performative} (hreg : v.IsRegular)
    (h : kind <$> readComposite name code read v = .ok p)
    (hread : Fields.Yields read fun a => (kind a).IsRepresentable) : p.IsRepresentable := by
  obtain ⟨a, ha, rfl⟩ := exists_of_map_eq_ok h
  exact (of_readComposite hread hreg ha :)

/-- Whatever a regular value means is representable. -/
theorem isRepresentable_of_ofValue {code : UInt64} {v : Value} {payload : Bytes} {p : Performative}
    (hreg : v.IsRegular) (h : ofValue code v payload = .ok p) : p.IsRepresentable := by
  unfold ofValue at h
  split at h
  · exact isRepresentable_of_map hreg h (Open.yields_fields.mono fun _ h => ⟨h, nofun⟩)
  split at h
  · exact isRepresentable_of_map hreg h (Begin.yields_fields.mono fun _ h => ⟨h, nofun⟩)
  split at h
  · exact isRepresentable_of_map hreg h Attach.yields_fields
  split at h
  · exact isRepresentable_of_map hreg h (Flow.yields_fields.mono fun _ h => ⟨h, nofun⟩)
  split at h
  · exact isRepresentable_of_map hreg h ((Transfer.yields_fields _).mono fun _ h => ⟨h, nofun⟩)
  split at h
  · exact isRepresentable_of_map hreg h (Disposition.yields_fields.mono fun _ h => ⟨h, nofun⟩)
  split at h
  · exact isRepresentable_of_map hreg h (Detach.yields_fields.mono fun _ h => ⟨h, nofun⟩)
  split at h
  · exact isRepresentable_of_map hreg h (End.yields_fields.mono fun _ h => ⟨h, nofun⟩)
  split at h
  · exact isRepresentable_of_map hreg h (Close.yields_fields.mono fun _ h => ⟨h, nofun⟩)
  cases h

theorem isRepresentable_of_decode {body : Bytes} {p : Performative} (h : decode body = .ok p) :
    p.IsRepresentable := by
  unfold decode at h
  cases hvalue : Value.decode body with
  | error m => rw [hvalue] at h; cases h
  | ok r =>
    obtain ⟨v, rest⟩ := r
    rw [hvalue] at h
    simp only [Except.mapError, bind, Except.bind] at h
    split at h
    · cases h
    · rename_i code _
      cases hp : ofValue code v rest with
      | error fault => rw [hp] at h; cases h
      | ok q =>
        rw [hp] at h
        have hq := isRepresentable_of_ofValue (Value.isRegular_of_decode hvalue) hp
        change (if q.takesPayload || rest.isEmpty then _ else _) = _ at h
        split_ifs at h
        · obtain rfl : q = p := Except.ok.inj h
          exact hq

end Performative

/-! ## Frame headers -/

namespace FrameHeader

/-- The header in front of a body of the given length. -/
def ofBody (bodyLength : Nat) (channel : UInt16) : FrameHeader :=
  { size := UInt32.ofNat (bodyLength + frameHeaderSize), dataOffset := defaultDataOffset,
    type := amqpFrameType, channel }

theorem ofBytes_leader {n : Nat} (h : n + frameHeaderSize < UInt32.size) (channel : UInt16)
    (rest : Bytes) :
    ofBytes (Frame.leader n ++ (Word.encode 2 channel.toNat ++ rest)) =
      .ok (ofBody n channel) := by
  have hsize := Word.decode_encode_of_lt (w := 4) h
  have hchannel := Word.decode_encode_of_lt (w := 2) channel.toNat_lt
  simp only [Word.encode] at hsize hchannel
  simp only [Frame.leader, Word.encode, List.cons_append, List.nil_append, ofBytes, hsize, hchannel]
  rw [UInt16.ofNat_toNat]
  rfl

theorem toNat_size_ofBody {n : Nat} (h : n + frameHeaderSize < UInt32.size) (channel : UInt16) :
    (ofBody n channel).size.toNat = n + frameHeaderSize :=
  UInt32.toNat_ofNat_of_lt h

theorem extendedLength_ofBody {n : Nat} (h : n + frameHeaderSize < UInt32.size)
    (channel : UInt16) : (ofBody n channel).extendedLength = .ok 0 := by
  have hoffset : (ofBody n channel).dataOffset.toNat * 4 = frameHeaderSize := rfl
  unfold extendedLength
  rw [hoffset, toNat_size_ofBody h, if_neg (by omega), Nat.sub_self]

end FrameHeader

theorem Frame.length_leader (n : Nat) : (Frame.leader n).length = 6 := by
  simp [Frame.leader]

theorem Frame.length_encodePerformative (channel : UInt16) (p : Performative) :
    (Frame.encodePerformative channel p).length = Frame.size p := by
  simp only [encodePerformative, size, List.length_append, length_leader, Word.length_encode,
    frameHeaderSize]
  omega

/-- A representable performative whose frame has less than `UInt32.size` octets is recovered from
the body of the frame, and the header of the frame tells its data offset, type, channel and length.
Whatever is decoded from a frame body is representable, and survives being encoded and decoded
again. -/
theorem Performative.decode_encode_and_isRepresentable_of_decode :
    (∀ (p : Performative) (channel : UInt16), p.IsRepresentable →
      (Frame.encodePerformative channel p).length < UInt32.size →
      decode p.encode = .ok p ∧
      ∃ h : FrameHeader,
        FrameHeader.ofBytes (Frame.leader p.encode.length ++ Word.encode 2 channel.toNat) = .ok h ∧
        h.dataOffset = 2 ∧ h.type = 0 ∧ h.channel = channel ∧ h.extendedLength = .ok 0 ∧
        h.size.toNat = Frame.size p ∧
        h.size.toNat = (Frame.encodePerformative channel p).length) ∧
    (∀ (body : Bytes) (p : Performative), decode body = .ok p →
      p.IsRepresentable ∧ (Frame.size p < UInt32.size → decode p.encode = .ok p)) := by
  constructor
  · intro p channel hp hlength
    rw [Frame.length_encodePerformative] at hlength ⊢
    have hbody : p.encode.length + frameHeaderSize < UInt32.size := hlength
    have hheader := FrameHeader.ofBytes_leader hbody channel []
    rw [List.append_nil] at hheader
    have hsize := FrameHeader.toNat_size_ofBody hbody channel
    exact ⟨decode_encode hp (by omega), _, hheader, rfl, rfl, rfl,
      FrameHeader.extendedLength_ofBody hbody channel, hsize, hsize⟩
  · intro body p h
    have hp := isRepresentable_of_decode h
    refine ⟨hp, fun hsize => decode_encode hp ?_⟩
    unfold Frame.size at hsize
    omega

/-- A transfer with a payload and a state that carries an array of nulls. -/
theorem Performative.decode_encode_modified_transfer :
    let state := DeliveryState.modified true false (some [(.uint 5, .array [.null, .null])])
    let p := transfer { handle := 1, more := true, state := some state, payload := [1, 2, 3] }
    decode p.encode = .ok p := by
  intro state p
  refine (decode_encode_and_isRepresentable_of_decode.1 p 3 ⟨?_, nofun⟩ (by decide)).1
  have huniform : Value.IsUniform [.null, .null] :=
    Or.inr ⟨[.null, .null], ⟨.null, by decide, by decide, by decide⟩, Or.inl rfl⟩
  have hentries : (Value.map [(.uint 5, .array [.null, .null])]).IsRegular :=
    ⟨⟨trivial, huniform, trivial, trivial, trivial⟩, trivial⟩
  exact List.forall_mem_singleton.2 hentries

end Amqp
