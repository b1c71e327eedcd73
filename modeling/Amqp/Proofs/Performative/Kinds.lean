import Amqp.Performative.Encoding
import Amqp.Proofs.Composite.Codec

/-!
# The nine kinds of performatives

A performative is representable when every value in it is regular and a source in it has no null
value as its default outcome.  For each kind, the reader of its fields takes what was written
(`ofValue_toValue`), what was written is regular (`isRegular_toValue`), and what the reader gives
from regular fields is representable (`yields_fields`).
-/

namespace Amqp

/-! ## Representable performatives -/

namespace Performative

/-- The values that a performative carries. -/
def values : Performative → List Value
  | openFrame o => Entries.values o.properties
  | begin b => Entries.values b.properties
  | attach a =>
    a.source.toList.flatMap Source.values ++ (a.target.toList.flatMap Target.values ++
      (Entries.values a.unsettled ++ Entries.values a.properties))
  | flow f => Entries.values f.properties
  | transfer t => t.state.toList.flatMap DeliveryState.values
  | disposition d => d.state.toList.flatMap DeliveryState.values
  | detach d => d.error.toList.flatMap ErrorInfo.values
  | endFrame e => e.error.toList.flatMap ErrorInfo.values
  | close c => c.error.toList.flatMap ErrorInfo.values

/-- The default outcome of the source in a performative. -/
def defaultOutcome : Performative → Option Value
  | attach a => a.source.bind Source.defaultOutcome
  | _ => none

/-- Whether a performative can be recovered from its encoding. -/
def IsRepresentable (p : Performative) : Prop :=
  Regular p.values ∧ p.defaultOutcome ≠ some .null

end Performative

/-! ## The kinds of performatives -/

theorem Open.ofValue_toValue (o : Open) :
    readComposite "open" Descriptor.openFrame Open.fields o.toValue = .ok o := by
  refine readComposite_composite _ _ ?_
  refine (Fields.reads_required _ Fields.accepts_string o.containerId).bind ?_
  refine (Fields.reads_optional _ Fields.accepts_string o.hostname).bind ?_
  refine (Fields.reads_optional _ Fields.accepts_uint o.maxFrameSize).bind ?_
  refine (Fields.reads_optional _ Fields.accepts_ushort o.channelMax).bind ?_
  refine (Fields.reads_optional _ Fields.accepts_uint o.idleTimeout).bind ?_
  refine (Fields.reads_optional _ Fields.accepts_symbols o.outgoingLocales).bind ?_
  refine (Fields.reads_optional _ Fields.accepts_symbols o.incomingLocales).bind ?_
  refine (Fields.reads_optional _ Fields.accepts_symbols o.offeredCapabilities).bind ?_
  refine (Fields.reads_optional _ Fields.accepts_symbols o.desiredCapabilities).bind ?_
  exact (Fields.reads_optional _ Fields.accepts_map o.properties).map _

theorem Open.isRegular_toValue {o : Open} (h : Regular (Entries.values o.properties)) :
    o.toValue.IsRegular := by
  refine isRegular_composite ?_
  simp only [List.forall_mem_cons]
  exact ⟨trivial, isRegular_ofOption fun _ _ => trivial, isRegular_ofOption fun _ _ => trivial,
    isRegular_ofOption fun _ _ => trivial, isRegular_ofOption fun _ _ => trivial,
    isRegular_names _, isRegular_names _, isRegular_names _, isRegular_names _,
    isRegular_entries h, List.forall_mem_nil _⟩

theorem Open.yields_fields :
    Fields.Yields Open.fields fun o => Regular (Entries.values o.properties) := by
  refine (Fields.keeps_required _ _).bind fun _ => (Fields.keeps_optional _ _).bind fun _ => ?_
  refine (Fields.keeps_optional _ _).bind fun _ => (Fields.keeps_optional _ _).bind fun _ => ?_
  refine (Fields.keeps_optional _ _).bind fun _ => (Fields.keeps_optional _ _).bind fun _ => ?_
  refine (Fields.keeps_optional _ _).bind fun _ => (Fields.keeps_optional _ _).bind fun _ => ?_
  refine (Fields.keeps_optional _ _).bind fun _ => ?_
  refine (Fields.yields_optional_map _).bind fun properties h => ?_
  exact Fields.yields_pure (regular_values_iff.2 h)

theorem Begin.ofValue_toValue (b : Begin) :
    readComposite "begin" Descriptor.begin Begin.fields b.toValue = .ok b := by
  refine readComposite_composite _ _ ?_
  refine (Fields.reads_optional _ Fields.accepts_ushort b.remoteChannel).bind ?_
  refine (Fields.reads_required _ Fields.accepts_uint b.nextOutgoingId).bind ?_
  refine (Fields.reads_required _ Fields.accepts_uint b.incomingWindow).bind ?_
  refine (Fields.reads_required _ Fields.accepts_uint b.outgoingWindow).bind ?_
  refine (Fields.reads_optional _ Fields.accepts_uint (some b.handleMax)).bind ?_
  refine (Fields.reads_optional _ Fields.accepts_symbols b.offeredCapabilities).bind ?_
  refine (Fields.reads_optional _ Fields.accepts_symbols b.desiredCapabilities).bind ?_
  exact (Fields.reads_optional _ Fields.accepts_map b.properties).map _

theorem Begin.isRegular_toValue {b : Begin} (h : Regular (Entries.values b.properties)) :
    b.toValue.IsRegular := by
  refine isRegular_composite ?_
  simp only [List.forall_mem_cons]
  exact ⟨isRegular_ofOption fun _ _ => trivial, trivial, trivial, trivial, trivial,
    isRegular_names _, isRegular_names _, isRegular_entries h, List.forall_mem_nil _⟩

theorem Begin.yields_fields :
    Fields.Yields Begin.fields fun b => Regular (Entries.values b.properties) := by
  refine (Fields.keeps_optional _ _).bind fun _ => (Fields.keeps_required _ _).bind fun _ => ?_
  refine (Fields.keeps_required _ _).bind fun _ => (Fields.keeps_required _ _).bind fun _ => ?_
  refine (Fields.keeps_optional _ _).bind fun _ => (Fields.keeps_optional _ _).bind fun _ => ?_
  refine (Fields.keeps_optional _ _).bind fun _ => ?_
  refine (Fields.yields_optional_map _).bind fun properties h => ?_
  exact Fields.yields_pure (regular_values_iff.2 h)

theorem Attach.ofValue_toValue {a : Attach} (h : a.source.bind Source.defaultOutcome ≠ some .null) :
    readComposite "attach" Descriptor.attach Attach.fields a.toValue = .ok a := by
  have hsource : Fields.Reads (Fields.nested Source.ofValue) [.ofOption Source.toValue a.source]
      a.source :=
    Fields.reads_nested fun s hs =>
      ⟨composite_ne_null _ _, Source.ofValue_toValue (by rwa [hs] at h)⟩
  have htarget : Fields.Reads (Fields.nested Target.ofValue) [.ofOption Target.toValue a.target]
      a.target :=
    Fields.reads_nested fun t _ => ⟨composite_ne_null _ _, Target.ofValue_toValue t⟩
  refine readComposite_composite _ _ ?_
  refine (Fields.reads_required _ Fields.accepts_string a.name).bind ?_
  refine (Fields.reads_required _ Fields.accepts_uint a.handle).bind ?_
  refine (Fields.reads_flag_bool _ a.role.isReceiver).bind ?_
  refine (Fields.reads_mode _ SenderSettleMode.ofCode_code a.senderSettleMode).bind ?_
  refine (Fields.reads_mode _ ReceiverSettleMode.ofCode_code a.receiverSettleMode).bind ?_
  refine hsource.bind (htarget.bind ?_)
  refine (Fields.reads_optional _ Fields.accepts_map a.unsettled).bind ?_
  refine (Fields.reads_flag _ a.incompleteUnsettled).bind ?_
  refine (Fields.reads_optional _ Fields.accepts_uint a.initialDeliveryCount).bind ?_
  refine (Fields.reads_optional _ Fields.accepts_ulong a.maxMessageSize).bind ?_
  refine (Fields.reads_optional _ Fields.accepts_symbols a.offeredCapabilities).bind ?_
  refine (Fields.reads_optional _ Fields.accepts_symbols a.desiredCapabilities).bind ?_
  refine (Fields.reads_optional _ Fields.accepts_map a.properties).bind ?_
  rw [Role.ofFlag_isReceiver]
  exact Fields.reads_pure a

theorem Attach.isRegular_toValue {a : Attach} (h : Regular (Performative.attach a).values) :
    a.toValue.IsRegular := by
  obtain ⟨hsource, h⟩ := regular_append_iff.1 h
  obtain ⟨htarget, h⟩ := regular_append_iff.1 h
  obtain ⟨hunsettled, hproperties⟩ := regular_append_iff.1 h
  refine isRegular_composite ?_
  simp only [List.forall_mem_cons]
  refine ⟨trivial, trivial, trivial, isRegular_ofOption fun _ _ => trivial,
    isRegular_ofOption fun _ _ => trivial, isRegular_ofOption fun s hs => ?_,
    isRegular_ofOption fun t ht => ?_, isRegular_entries hunsettled, isRegular_ofFlag _,
    isRegular_ofOption fun _ _ => trivial, isRegular_ofOption fun _ _ => trivial,
    isRegular_names _, isRegular_names _, isRegular_entries hproperties, List.forall_mem_nil _⟩
  · exact Source.isRegular_toValue (regular_flatMap_iff.1 hsource s hs)
  · exact Target.isRegular_toValue (regular_flatMap_iff.1 htarget t ht)

theorem Attach.yields_fields :
    Fields.Yields Attach.fields fun a => (Performative.attach a).IsRepresentable := by
  refine (Fields.keeps_required _ _).bind fun _ => (Fields.keeps_required _ _).bind fun _ => ?_
  refine (Fields.keeps_flag _).bind fun _ => ?_
  refine (Fields.keeps_mode _ _).bind fun _ => (Fields.keeps_mode _ _).bind fun _ => ?_
  refine (Fields.yields_nested fun _ _ => Source.regular_of_ofValue).bind fun source hsource => ?_
  refine (Fields.yields_nested fun _ _ => Target.regular_of_ofValue).bind fun target htarget => ?_
  refine (Fields.yields_optional_map _).bind fun unsettled hunsettled => ?_
  refine (Fields.keeps_flag _).bind fun _ => ?_
  refine (Fields.keeps_optional _ _).bind fun _ => (Fields.keeps_optional _ _).bind fun _ => ?_
  refine (Fields.keeps_optional _ _).bind fun _ => (Fields.keeps_optional _ _).bind fun _ => ?_
  refine (Fields.yields_optional_map _).bind fun properties hproperties => ?_
  refine Fields.yields_pure ⟨?_, ?_⟩
  · refine regular_append_iff.2 ⟨regular_flatMap_iff.2 fun s hs => (hsource s hs).1, ?_⟩
    refine regular_append_iff.2 ⟨regular_flatMap_iff.2 htarget, ?_⟩
    exact regular_append_iff.2 ⟨regular_values_iff.2 hunsettled, regular_values_iff.2 hproperties⟩
  · change source.bind Source.defaultOutcome ≠ some .null
    cases source with
    | none => simp
    | some s => exact (hsource s rfl).2

theorem Flow.ofValue_toValue (f : Flow) :
    readComposite "flow" Descriptor.flow Flow.fields f.toValue = .ok f := by
  refine readComposite_composite _ _ ?_
  refine (Fields.reads_optional _ Fields.accepts_uint f.nextIncomingId).bind ?_
  refine (Fields.reads_required _ Fields.accepts_uint f.incomingWindow).bind ?_
  refine (Fields.reads_required _ Fields.accepts_uint f.nextOutgoingId).bind ?_
  refine (Fields.reads_required _ Fields.accepts_uint f.outgoingWindow).bind ?_
  refine (Fields.reads_optional _ Fields.accepts_uint f.handle).bind ?_
  refine (Fields.reads_optional _ Fields.accepts_uint f.deliveryCount).bind ?_
  refine (Fields.reads_optional _ Fields.accepts_uint f.linkCredit).bind ?_
  refine (Fields.reads_optional _ Fields.accepts_uint f.available).bind ?_
  refine (Fields.reads_flag _ f.drain).bind ?_
  refine (Fields.reads_flag _ f.echo).bind ?_
  exact (Fields.reads_optional _ Fields.accepts_map f.properties).map _

theorem Flow.isRegular_toValue {f : Flow} (h : Regular (Entries.values f.properties)) :
    f.toValue.IsRegular := by
  refine isRegular_composite ?_
  simp only [List.forall_mem_cons]
  exact ⟨isRegular_ofOption fun _ _ => trivial, trivial, trivial, trivial,
    isRegular_ofOption fun _ _ => trivial, isRegular_ofOption fun _ _ => trivial,
    isRegular_ofOption fun _ _ => trivial, isRegular_ofOption fun _ _ => trivial,
    isRegular_ofFlag _, isRegular_ofFlag _, isRegular_entries h, List.forall_mem_nil _⟩

theorem Flow.yields_fields :
    Fields.Yields Flow.fields fun f => Regular (Entries.values f.properties) := by
  refine (Fields.keeps_optional _ _).bind fun _ => (Fields.keeps_required _ _).bind fun _ => ?_
  refine (Fields.keeps_required _ _).bind fun _ => (Fields.keeps_required _ _).bind fun _ => ?_
  refine (Fields.keeps_optional _ _).bind fun _ => (Fields.keeps_optional _ _).bind fun _ => ?_
  refine (Fields.keeps_optional _ _).bind fun _ => (Fields.keeps_optional _ _).bind fun _ => ?_
  refine (Fields.keeps_flag _).bind fun _ => (Fields.keeps_flag _).bind fun _ => ?_
  refine (Fields.yields_optional_map _).bind fun properties h => ?_
  exact Fields.yields_pure (regular_values_iff.2 h)

theorem Transfer.ofValue_toValue (t : Transfer) :
    readComposite "transfer" Descriptor.transfer (Transfer.fields t.payload) t.toValue = .ok t := by
  refine readComposite_composite _ _ ?_
  refine (Fields.reads_required _ Fields.accepts_uint t.handle).bind ?_
  refine (Fields.reads_optional _ Fields.accepts_uint t.deliveryId).bind ?_
  refine (Fields.reads_optional _ Fields.accepts_binary t.deliveryTag).bind ?_
  refine (Fields.reads_optional _ Fields.accepts_uint t.messageFormat).bind ?_
  refine (Fields.reads_optional _ Fields.accepts_bool t.settled).bind ?_
  refine (Fields.reads_flag _ t.more).bind ?_
  refine (Fields.reads_mode _ ReceiverSettleMode.ofCode_code t.receiverSettleMode).bind ?_
  refine (reads_nested_state t.state).bind ?_
  refine (Fields.reads_flag _ t.resume).bind ?_
  refine (Fields.reads_flag _ t.aborted).bind ?_
  exact (Fields.reads_flag _ t.batchable).map _

theorem Transfer.isRegular_toValue {t : Transfer}
    (h : Regular (t.state.toList.flatMap DeliveryState.values)) : t.toValue.IsRegular := by
  refine isRegular_composite ?_
  simp only [List.forall_mem_cons]
  exact ⟨trivial, isRegular_ofOption fun _ _ => trivial, isRegular_ofOption fun _ _ => trivial,
    isRegular_ofOption fun _ _ => trivial, isRegular_ofOption fun _ _ => trivial,
    isRegular_ofFlag _, isRegular_ofOption fun _ _ => trivial, isRegular_state h,
    isRegular_ofFlag _, isRegular_ofFlag _, isRegular_ofFlag _, List.forall_mem_nil _⟩

theorem Transfer.yields_fields (payload : Bytes) :
    Fields.Yields (Transfer.fields payload) fun t =>
      Regular (t.state.toList.flatMap DeliveryState.values) := by
  refine (Fields.keeps_required _ _).bind fun _ => (Fields.keeps_optional _ _).bind fun _ => ?_
  refine (Fields.keeps_optional _ _).bind fun _ => (Fields.keeps_optional _ _).bind fun _ => ?_
  refine (Fields.keeps_optional _ _).bind fun _ => (Fields.keeps_flag _).bind fun _ => ?_
  refine (Fields.keeps_mode _ _).bind fun _ => ?_
  refine yields_nested_state.bind fun state h => ?_
  refine (Fields.keeps_flag _).bind fun _ => (Fields.keeps_flag _).bind fun _ => ?_
  exact (Fields.keeps_flag _).bind fun _ => Fields.yields_pure h

theorem Disposition.ofValue_toValue (d : Disposition) :
    readComposite "disposition" Descriptor.disposition Disposition.fields d.toValue = .ok d := by
  refine readComposite_composite _ _ ?_
  refine (Fields.reads_flag_bool _ d.role.isReceiver).bind ?_
  refine (Fields.reads_required _ Fields.accepts_uint d.first).bind ?_
  refine (Fields.reads_optional _ Fields.accepts_uint d.last).bind ?_
  refine (Fields.reads_flag _ d.settled).bind ?_
  refine (reads_nested_state d.state).bind ?_
  refine (Fields.reads_flag _ d.batchable).bind ?_
  rw [Role.ofFlag_isReceiver]
  exact Fields.reads_pure d

theorem Disposition.isRegular_toValue {d : Disposition}
    (h : Regular (d.state.toList.flatMap DeliveryState.values)) : d.toValue.IsRegular := by
  refine isRegular_composite ?_
  simp only [List.forall_mem_cons]
  exact ⟨trivial, trivial, isRegular_ofOption fun _ _ => trivial, isRegular_ofFlag _,
    isRegular_state h, isRegular_ofFlag _, List.forall_mem_nil _⟩

theorem Disposition.yields_fields :
    Fields.Yields Disposition.fields fun d =>
      Regular (d.state.toList.flatMap DeliveryState.values) := by
  refine (Fields.keeps_flag _).bind fun _ => (Fields.keeps_required _ _).bind fun _ => ?_
  refine (Fields.keeps_optional _ _).bind fun _ => (Fields.keeps_flag _).bind fun _ => ?_
  refine yields_nested_state.bind fun state h => ?_
  exact (Fields.keeps_flag _).bind fun _ => Fields.yields_pure h

theorem Detach.ofValue_toValue (d : Detach) :
    readComposite "detach" Descriptor.detach Detach.fields d.toValue = .ok d := by
  refine readComposite_composite _ _ ?_
  refine (Fields.reads_required _ Fields.accepts_uint d.handle).bind ?_
  refine (Fields.reads_flag _ d.closed).bind ?_
  exact (reads_nested_error d.error).map _

theorem Detach.isRegular_toValue {d : Detach}
    (h : Regular (d.error.toList.flatMap ErrorInfo.values)) : d.toValue.IsRegular := by
  refine isRegular_composite ?_
  simp only [List.forall_mem_cons]
  exact ⟨trivial, isRegular_ofFlag _, isRegular_error h, List.forall_mem_nil _⟩

theorem Detach.yields_fields :
    Fields.Yields Detach.fields fun d => Regular (d.error.toList.flatMap ErrorInfo.values) := by
  refine (Fields.keeps_required _ _).bind fun _ => (Fields.keeps_flag _).bind fun _ => ?_
  exact yields_nested_error.bind fun _ h => Fields.yields_pure h

theorem End.ofValue_toValue (e : End) :
    readComposite "end" Descriptor.endFrame End.fields (Performative.endFrame e).toValue = .ok e :=
  readComposite_composite _ _ ((reads_nested_error e.error).map _)

theorem End.yields_fields :
    Fields.Yields End.fields fun e => Regular (e.error.toList.flatMap ErrorInfo.values) :=
  yields_nested_error.bind fun _ h => Fields.yields_pure h

theorem Close.ofValue_toValue (c : Close) :
    readComposite "close" Descriptor.close Close.fields (Performative.close c).toValue = .ok c :=
  readComposite_composite _ _ ((reads_nested_error c.error).map _)

theorem Close.yields_fields :
    Fields.Yields Close.fields fun c => Regular (c.error.toList.flatMap ErrorInfo.values) :=
  yields_nested_error.bind fun _ h => Fields.yields_pure h

end Amqp
