import Amqp.Composite.DeliveryState
import Amqp.Composite.Terminus
import Amqp.Proofs.Composite.Fields

/-!
# Reading composites back

Errors, delivery states, sources and targets are read back from the values that they are written as.
The one exception is a source whose default outcome is a null value, which reads as no outcome.
`values` collects the values inside a composite that are not of its own making; a composite is
written as a regular value if they are regular, and the values inside a composite that was read are
regular.
-/

namespace Amqp

/-! ## Values inside composites -/

/-- The optional entries of a map, as a value when they are there. -/
def Entries.values (o : Option Entries) : List Value := o.toList.map .map

/-- The values that an error carries. -/
def ErrorInfo.values (e : ErrorInfo) : List Value := Entries.values e.info

/-- The values that a delivery state carries. -/
def DeliveryState.values : DeliveryState → List Value
  | received _ _ | accepted | released => []
  | rejected error => error.toList.flatMap ErrorInfo.values
  | modified _ _ messageAnnotations => Entries.values messageAnnotations

/-- The values that a source carries. -/
def Source.values (s : Source) : List Value :=
  Entries.values s.dynamicNodeProperties ++ (Entries.values s.filter ++ s.defaultOutcome.toList)

/-- The values that a target carries. -/
def Target.values (t : Target) : List Value := Entries.values t.dynamicNodeProperties

/-- Whether all values of a list are regular. -/
abbrev Regular (values : List Value) : Prop := ∀ v ∈ values, v.IsRegular

theorem regular_values_iff {o : Option Entries} :
    Regular (Entries.values o) ↔ ∀ entries, o = some entries → (Value.map entries).IsRegular := by
  cases o <;> simp [Regular, Entries.values]

theorem regular_flatMap_iff {α : Type} {values : α → List Value} {o : Option α} :
    Regular (o.toList.flatMap values) ↔ ∀ a, o = some a → Regular (values a) := by
  cases o <;> simp [Regular]

theorem regular_append_iff {xs ys : List Value} :
    Regular (xs ++ ys) ↔ Regular xs ∧ Regular ys := List.forall_mem_append

/-! ## Regular fields -/

theorem isRegular_ofOption {α : Type} {toValue : α → Value} {o : Option α}
    (h : ∀ a, o = some a → (toValue a).IsRegular) : (Value.ofOption toValue o).IsRegular := by
  cases o with
  | none => trivial
  | some a => exact h a rfl

theorem isRegular_ofFlag (on : Bool) : (Value.ofFlag on).IsRegular := by
  cases on <;> trivial

theorem isRegular_entries {o : Option Entries} (h : Regular (Entries.values o)) :
    (Value.ofOption .map o).IsRegular :=
  isRegular_ofOption (regular_values_iff.1 h)

theorem isRegular_names (o : Option (List String)) : (Value.ofOption .symbols o).IsRegular :=
  isRegular_ofOption fun names _ => Value.isRegular_symbols names

/-! ## Errors -/

namespace ErrorInfo

theorem reads_fields (e : ErrorInfo) :
    Fields.Reads fields
      [.symbol e.condition, .ofOption .string e.description, .ofOption .map e.info] e := by
  refine (Fields.reads_required "condition" Fields.accepts_symbol e.condition).bind ?_
  refine (Fields.reads_optional "description" Fields.accepts_string e.description).bind ?_
  exact (Fields.reads_optional "info" Fields.accepts_map e.info).map _

theorem ofValue_toValue (e : ErrorInfo) : ofValue e.toValue = .ok e :=
  readComposite_composite "error" Descriptor.error (reads_fields e)

theorem isRegular_toValue {e : ErrorInfo} (h : Regular e.values) : e.toValue.IsRegular := by
  refine isRegular_composite ?_
  simp only [List.forall_mem_cons]
  refine ⟨trivial, isRegular_ofOption fun _ _ => trivial, isRegular_entries h, by simp⟩

theorem regular_of_ofValue {v : Value} {e : ErrorInfo} (hreg : v.IsRegular)
    (h : ofValue v = .ok e) : Regular e.values := by
  have hread : Fields.Yields fields fun e => Regular e.values := by
    refine (Fields.keeps_required _ _).bind fun _ => ?_
    refine (Fields.keeps_optional _ _).bind fun _ => ?_
    refine (Fields.yields_optional_map "info").bind fun info hinfo => ?_
    exact Fields.yields_pure (regular_values_iff.2 hinfo)
  exact (of_readComposite hread hreg h :)

end ErrorInfo

theorem reads_nested_error (o : Option ErrorInfo) :
    Fields.Reads (Fields.nested ErrorInfo.ofValue) [.ofOption ErrorInfo.toValue o] o :=
  Fields.reads_nested fun e _ => ⟨composite_ne_null _ _, ErrorInfo.ofValue_toValue e⟩

theorem isRegular_error {o : Option ErrorInfo} (h : Regular (o.toList.flatMap ErrorInfo.values)) :
    (Value.ofOption ErrorInfo.toValue o).IsRegular :=
  isRegular_ofOption fun e he => ErrorInfo.isRegular_toValue (regular_flatMap_iff.1 h e he)

theorem yields_nested_error :
    Fields.Yields (Fields.nested ErrorInfo.ofValue) fun o =>
      Regular (o.toList.flatMap ErrorInfo.values) :=
  (Fields.yields_nested fun _ _ => ErrorInfo.regular_of_ofValue).mono fun _ ho =>
    regular_flatMap_iff.2 ho

/-! ## Delivery states -/

namespace DeliveryState

theorem ofValue_toValue (s : DeliveryState) : ofValue s.toValue = .ok s := by
  cases s with
  | received number offset =>
    have hread : Fields.Reads receivedFields [.uint number, .ulong offset]
        (received number offset) := by
      refine (Fields.reads_required "section_number" Fields.accepts_uint number).bind ?_
      exact (Fields.reads_optional "section_offset" Fields.accepts_ulong (some offset)).map _
    exact readComposite_composite "received" Descriptor.received hread
  | accepted =>
    exact readComposite_composite "accepted" Descriptor.accepted (Fields.reads_pure accepted)
  | rejected error =>
    have hread : Fields.Reads rejectedFields [.ofOption ErrorInfo.toValue error]
        (rejected error) := (reads_nested_error error).map rejected
    exact readComposite_composite "rejected" Descriptor.rejected hread
  | released =>
    exact readComposite_composite "released" Descriptor.released (Fields.reads_pure released)
  | modified failed undeliverable annotations =>
    have hread : Fields.Reads modifiedFields
        [.ofFlag failed, .ofFlag undeliverable, .ofOption .map annotations]
        (modified failed undeliverable annotations) := by
      refine (Fields.reads_flag "delivery_failed" failed).bind ?_
      refine (Fields.reads_flag "undeliverable_here" undeliverable).bind ?_
      exact (Fields.reads_optional "message_annotations" Fields.accepts_map annotations).map _
    exact readComposite_composite "modified" Descriptor.modified hread

theorem isRegular_toValue {s : DeliveryState} (h : Regular s.values) : s.toValue.IsRegular := by
  cases s with
  | received => exact isRegular_composite (by simp [Value.IsRegular])
  | accepted => exact isRegular_composite (by simp)
  | rejected => exact isRegular_composite (List.forall_mem_singleton.2 (isRegular_error h))
  | released => exact isRegular_composite (by simp)
  | modified =>
    refine isRegular_composite ?_
    simp only [List.forall_mem_cons]
    exact ⟨isRegular_ofFlag _, isRegular_ofFlag _, isRegular_entries h, by simp⟩

theorem regular_of_ofValue {v : Value} {s : DeliveryState} (hreg : v.IsRegular)
    (h : ofValue v = .ok s) : Regular s.values := by
  have hreceived : Fields.Yields receivedFields fun s => Regular s.values := by
    refine (Fields.keeps_required _ _).bind fun _ => (Fields.keeps_optional _ _).bind fun _ => ?_
    exact Fields.yields_pure (List.forall_mem_nil _)
  have hrejected : Fields.Yields rejectedFields fun s => Regular s.values :=
    yields_nested_error.bind fun _ h => Fields.yields_pure h
  have hmodified : Fields.Yields modifiedFields fun s => Regular s.values := by
    refine (Fields.keeps_flag _).bind fun _ => (Fields.keeps_flag _).bind fun _ => ?_
    refine (Fields.yields_optional_map _).bind fun _ h => ?_
    exact Fields.yields_pure (regular_values_iff.2 h)
  have hnone : ∀ s : DeliveryState, s.values = [] →
      Fields.Yields (pure s) fun s => Regular s.values :=
    fun s hs => Fields.yields_pure (by rw [hs]; exact List.forall_mem_nil _)
  unfold ofValue at h
  split at h
  · cases h
  · split_ifs at h
    · exact (of_readComposite hreceived hreg h :)
    · exact (of_readComposite (hnone accepted rfl) hreg h :)
    · exact (of_readComposite hrejected hreg h :)
    · exact (of_readComposite (hnone released rfl) hreg h :)
    · exact (of_readComposite hmodified hreg h :)

end DeliveryState

theorem reads_nested_state (o : Option DeliveryState) :
    Fields.Reads (Fields.nested DeliveryState.ofValue) [.ofOption DeliveryState.toValue o] o :=
  Fields.reads_nested fun s _ =>
    ⟨by cases s <;> exact composite_ne_null _ _, DeliveryState.ofValue_toValue s⟩

theorem isRegular_state {o : Option DeliveryState}
    (h : Regular (o.toList.flatMap DeliveryState.values)) :
    (Value.ofOption DeliveryState.toValue o).IsRegular :=
  isRegular_ofOption fun s hs => DeliveryState.isRegular_toValue (regular_flatMap_iff.1 h s hs)

theorem yields_nested_state :
    Fields.Yields (Fields.nested DeliveryState.ofValue) fun o =>
      Regular (o.toList.flatMap DeliveryState.values) :=
  (Fields.yields_nested fun _ _ => DeliveryState.regular_of_ofValue).mono fun _ ho =>
    regular_flatMap_iff.2 ho

/-! ## Termini -/

namespace Source

theorem ofValue_toValue {s : Source} (h : s.defaultOutcome ≠ some .null) :
    ofValue s.toValue = .ok s := by
  have houtcome : Fields.Reads (Fields.optional "default_outcome" Fields.any)
      [.ofOption id s.defaultOutcome] s.defaultOutcome := by
    cases ho : s.defaultOutcome with
    | none => exact Fields.reads_optional_none _ _
    | some v => exact Fields.reads_optional_some _ _ (fun hv => h (ho.trans (congrArg some hv))) rfl
  refine readComposite_composite "source" Descriptor.source ?_
  refine (Fields.reads_optional "address" Fields.accepts_string s.address).bind ?_
  refine (Fields.reads_optional "durable" Fields.accepts_uint s.durable).bind ?_
  refine (Fields.reads_optional "expiry_policy" Fields.accepts_symbol s.expiryPolicy).bind ?_
  refine (Fields.reads_optional "timeout" Fields.accepts_uint s.timeout).bind ?_
  refine (Fields.reads_flag "dynamic" s.dynamic).bind ?_
  refine (Fields.reads_optional "dynamic_node_properties" Fields.accepts_map
    s.dynamicNodeProperties).bind ?_
  refine (Fields.reads_optional "distribution_mode" Fields.accepts_symbol
    s.distributionMode).bind ?_
  refine (Fields.reads_optional "filter" Fields.accepts_map s.filter).bind ?_
  refine houtcome.bind ?_
  refine (Fields.reads_optional "outcomes" Fields.accepts_symbols s.outcomes).bind ?_
  exact (Fields.reads_optional "capabilities" Fields.accepts_symbols s.capabilities).map _

theorem isRegular_toValue {s : Source} (h : Regular s.values) : s.toValue.IsRegular := by
  obtain ⟨hproperties, hrest⟩ := regular_append_iff.1 h
  obtain ⟨hfilter, houtcome⟩ := regular_append_iff.1 hrest
  refine isRegular_composite ?_
  simp only [List.forall_mem_cons]
  refine ⟨isRegular_ofOption fun _ _ => trivial, isRegular_ofOption fun _ _ => trivial,
    isRegular_ofOption fun _ _ => trivial, isRegular_ofOption fun _ _ => trivial,
    isRegular_ofFlag _, isRegular_entries hproperties, isRegular_ofOption fun _ _ => trivial,
    isRegular_entries hfilter, isRegular_ofOption fun v hv => houtcome v (by simp [hv]),
    isRegular_names _, isRegular_names _, by simp⟩

theorem regular_of_ofValue {v : Value} {s : Source} (hreg : v.IsRegular) (h : ofValue v = .ok s) :
    Regular s.values ∧ s.defaultOutcome ≠ some .null := by
  have houtcome : Fields.Yields (Fields.optional "default_outcome" Fields.any) fun o =>
      ∀ v, o = some v → v ≠ .null ∧ v.IsRegular := by
    refine Fields.yields_optional _ fun v a hnull hv haccept => ?_
    obtain rfl : v = a := by simpa [Fields.any] using haccept
    exact ⟨hnull, hv⟩
  have hread : Fields.Yields fields fun s =>
      Regular s.values ∧ s.defaultOutcome ≠ some .null := by
    refine (Fields.keeps_optional _ _).bind fun _ => (Fields.keeps_optional _ _).bind fun _ => ?_
    refine (Fields.keeps_optional _ _).bind fun _ => (Fields.keeps_optional _ _).bind fun _ => ?_
    refine (Fields.keeps_flag _).bind fun _ => ?_
    refine (Fields.yields_optional_map _).bind fun properties hproperties => ?_
    refine (Fields.keeps_optional _ _).bind fun _ => ?_
    refine (Fields.yields_optional_map _).bind fun filter hfilter => ?_
    refine houtcome.bind fun outcome houtcome => ?_
    refine (Fields.keeps_optional _ _).bind fun _ => (Fields.keeps_optional _ _).bind fun _ => ?_
    refine Fields.yields_pure ⟨?_, fun hnull => (houtcome _ hnull).1 rfl⟩
    refine regular_append_iff.2 ⟨regular_values_iff.2 hproperties, ?_⟩
    refine regular_append_iff.2 ⟨regular_values_iff.2 hfilter, fun v hv => ?_⟩
    exact (houtcome v (Option.mem_toList.1 hv)).2
  exact (of_readComposite hread hreg h :)

end Source

namespace Target

theorem ofValue_toValue (t : Target) : ofValue t.toValue = .ok t := by
  refine readComposite_composite "target" Descriptor.target ?_
  refine (Fields.reads_optional "address" Fields.accepts_string t.address).bind ?_
  refine (Fields.reads_optional "durable" Fields.accepts_uint t.durable).bind ?_
  refine (Fields.reads_optional "expiry_policy" Fields.accepts_symbol t.expiryPolicy).bind ?_
  refine (Fields.reads_optional "timeout" Fields.accepts_uint t.timeout).bind ?_
  refine (Fields.reads_flag "dynamic" t.dynamic).bind ?_
  refine (Fields.reads_optional "dynamic_node_properties" Fields.accepts_map
    t.dynamicNodeProperties).bind ?_
  exact (Fields.reads_optional "capabilities" Fields.accepts_symbols t.capabilities).map _

theorem isRegular_toValue {t : Target} (h : Regular t.values) : t.toValue.IsRegular := by
  refine isRegular_composite ?_
  simp only [List.forall_mem_cons]
  refine ⟨isRegular_ofOption fun _ _ => trivial, isRegular_ofOption fun _ _ => trivial,
    isRegular_ofOption fun _ _ => trivial, isRegular_ofOption fun _ _ => trivial,
    isRegular_ofFlag _, isRegular_entries h, isRegular_names _, by simp⟩

theorem regular_of_ofValue {v : Value} {t : Target} (hreg : v.IsRegular) (h : ofValue v = .ok t) :
    Regular t.values := by
  have hread : Fields.Yields fields fun t => Regular t.values := by
    refine (Fields.keeps_optional _ _).bind fun _ => (Fields.keeps_optional _ _).bind fun _ => ?_
    refine (Fields.keeps_optional _ _).bind fun _ => (Fields.keeps_optional _ _).bind fun _ => ?_
    refine (Fields.keeps_flag _).bind fun _ => ?_
    refine (Fields.yields_optional_map _).bind fun properties hproperties => ?_
    refine (Fields.keeps_optional _ _).bind fun _ => ?_
    exact Fields.yields_pure (regular_values_iff.2 hproperties)
  exact (of_readComposite hread hreg h :)

end Target

end Amqp
