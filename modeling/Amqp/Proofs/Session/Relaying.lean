import Amqp.Proofs.Performative.Plain
import Amqp.Proofs.Performative.RoundTrip
import Amqp.Proofs.Session.Taking

/-!
# Relaying frames

Peers whose links stay attached send each other parts of deliveries, flows and acceptances only
(`IsSound`).  The octets of such a frame say what the frame says (`relay_of_isSound`), and a frame
that waits stays sound while no link changes its handle (`IsSound.mono`).
-/

namespace Amqp

/-! ## The octets of a frame -/

/-- What the octets of the frame of a performative say: the channel, and the performative in the
body behind the header. -/
def Frame.relay (channel : UInt16) (p : Performative) : Except Fault (UInt16 × Performative) := do
  let octets := Frame.encodePerformative channel p
  let header ← FrameHeader.ofBytes octets
  let extended ← header.extendedLength
  let p ← Performative.decode (octets.drop (frameHeaderSize + extended))
  return (header.channel, p)

theorem Frame.relay_eq {p : Performative} (h : p.IsRepresentable)
    (hsize : Frame.size p < UInt32.size) (channel : UInt16) :
    Frame.relay channel p = .ok (channel, p) := by
  have hbody : p.encode.length + frameHeaderSize < UInt32.size := hsize
  have hheader := FrameHeader.ofBytes_leader hbody channel p.encode
  have hoffset : (Frame.encodePerformative channel p).drop frameHeaderSize = p.encode := by
    have hlength : (Frame.leader p.encode.length ++ Word.encode 2 channel.toNat).length =
        frameHeaderSize := by
      rw [List.length_append, Frame.length_leader, Word.length_encode]
      rfl
    unfold encodePerformative
    rw [← List.append_assoc]
    exact List.drop_left' hlength
  have hdecode := Performative.decode_encode h (by omega)
  unfold relay
  change (FrameHeader.ofBytes (Frame.leader p.encode.length ++
    (Word.encode 2 channel.toNat ++ p.encode)) >>= _) = _
  rw [hheader]
  change ((FrameHeader.ofBody p.encode.length channel).extendedLength >>= _) = _
  rw [FrameHeader.extendedLength_ofBody hbody]
  change (Performative.decode
    ((Frame.encodePerformative channel p).drop (frameHeaderSize + 0)) >>= _) = _
  rw [Nat.add_zero, hoffset, hdecode]
  rfl

namespace Session

/-! ## Frames between attached peers -/

/-- Whether a frame is one that a peer sends while its links stay attached: a part of a delivery of
one of its sending links, a flow for all its links or for one of its receiving links, or an
acceptance. -/
def IsSound (f : Face) : Performative → Prop
  | .transfer t =>
    t.state = none ∧ Frame.size (.transfer t) < UInt32.size ∧
      ∃ name v, f.senders name = some v ∧ v.endpoint.handle = t.handle
  | .flow w =>
    w.drain = false ∧ w.echo = false ∧ w.properties = none ∧
      ∀ h, w.handle = some h → ∃ name r, f.receivers name = some r ∧ r.endpoint.handle = h
  | .disposition d => ∃ id, d = Link.acceptance id
  | _ => False

/-- What is sound comes through the codec as it is. -/
theorem relay_of_isSound {f : Face} {p : Performative} (h : IsSound f p) (channel : UInt16) :
    Frame.relay channel p = .ok (channel, p) := by
  have hnil : Regular [] := List.forall_mem_nil _
  have hsmall : 64 < UInt32.size := by decide
  cases p with
  | transfer t =>
    obtain ⟨hstate, hsize, -⟩ := h
    refine Frame.relay_eq ⟨?_, by simp [Performative.defaultOutcome]⟩ hsize channel
    change Regular (t.state.toList.flatMap DeliveryState.values)
    rw [hstate]
    exact hnil
  | flow w =>
    obtain ⟨-, -, hproperties, -⟩ := h
    refine Frame.relay_eq ⟨?_, by simp [Performative.defaultOutcome]⟩
      (Nat.lt_of_le_of_lt (Performative.size_flow_le hproperties) hsmall) channel
    change Regular (Entries.values w.properties)
    rw [hproperties]
    exact hnil
  | disposition d =>
    obtain ⟨id, rfl⟩ := h
    have hrepresentable : (Performative.disposition (Link.acceptance id)).IsRepresentable :=
      ⟨hnil, by simp [Performative.defaultOutcome]⟩
    have hsize : Frame.size (.disposition (Link.acceptance id)) ≤ 64 :=
      Performative.size_disposition_le rfl
    exact Frame.relay_eq hrepresentable (Nat.lt_of_le_of_lt hsize hsmall) channel
  | _ => exact h.elim

/-- Whether two faces have the same link ends under the same names and handles. -/
structure SameHandles (f f' : Face) : Prop where
  senders : ∀ name,
    (f'.senders name).map (·.endpoint.handle) = (f.senders name).map (·.endpoint.handle)
  receivers : ∀ name,
    (f'.receivers name).map (·.endpoint.handle) = (f.receivers name).map (·.endpoint.handle)

theorem SameHandles.refl (f : Face) : SameHandles f f := ⟨fun _ => rfl, fun _ => rfl⟩

theorem map_update {α β : Type} {g : α → β} {f : String → Option α} {name : String} {a b : α}
    (h : f name = some a) (hg : g b = g a) (n : String) :
    (Function.update f name (some b) n).map g = (f n).map g := by
  by_cases hn : n = name
  · subst hn
    rw [Function.update_self, h, Option.map_some, Option.map_some, hg]
  · rw [Function.update_of_ne hn]

theorem sameHandles_withSender {f : Face} {name : String} {v v' : Link.Sender}
    (h : f.senders name = some v) (hhandle : v'.endpoint.handle = v.endpoint.handle) :
    SameHandles f (f.withSender name v') :=
  ⟨map_update h hhandle, fun _ => rfl⟩

theorem sameHandles_withReceiver {f : Face} {name : String} {r r' : Link.Receiver}
    (h : f.receivers name = some r) (hhandle : r'.endpoint.handle = r.endpoint.handle) :
    SameHandles f (f.withReceiver name r') :=
  ⟨fun _ => rfl, map_update h hhandle⟩

theorem exists_of_map_eq {α β : Type} {g : α → β} {x y : Option α} {a : α}
    (h : y.map g = x.map g) (hx : x = some a) : ∃ b, y = some b ∧ g b = g a := by
  rw [hx, Option.map_some] at h
  exact Option.map_eq_some_iff.1 h

theorem IsSound.mono {f f' : Face} {p : Performative} (h : IsSound f p) (hf : SameHandles f f') :
    IsSound f' p := by
  cases p with
  | transfer t =>
    obtain ⟨hstate, hsize, name, v, hv, hhandle⟩ := h
    obtain ⟨v', hv', hsame⟩ := exists_of_map_eq (hf.senders name) hv
    exact ⟨hstate, hsize, name, v', hv', hsame.trans hhandle⟩
  | flow w =>
    obtain ⟨hdrain, hecho, hproperties, hhandle⟩ := h
    refine ⟨hdrain, hecho, hproperties, fun h hw => ?_⟩
    obtain ⟨name, r, hr, hh⟩ := hhandle h hw
    obtain ⟨r', hr', hsame⟩ := exists_of_map_eq (hf.receivers name) hr
    exact ⟨name, r', hr', hsame.trans hh⟩
  | disposition d => exact h
  | _ => exact h.elim

/-- Whether a frame is one that a receiving end on a handle gives in return. -/
def IsReply (handle : UInt32) (p : Performative) : Prop :=
  IsGrant handle p ∨ ∃ id, p = .disposition (Link.acceptance id)

theorem IsReply.isSound {f : Face} {p : Performative} {name : String} {r : Link.Receiver}
    (h : IsReply r.endpoint.handle p) (hr : f.receivers name = some r) : IsSound f p := by
  rcases h with ⟨w, rfl, hdrain, hecho, hproperties, hhandle⟩ | ⟨id, rfl⟩
  · exact ⟨hdrain, hecho, hproperties, fun h hw => ⟨name, r, hr, (hhandle h hw).symm⟩⟩
  · exact ⟨id, rfl⟩

end Session

end Amqp
