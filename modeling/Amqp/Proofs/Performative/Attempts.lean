import Amqp.Proofs.Composite.Fields
import Amqp.Proofs.Value.Serving

/-!
# Performatives read with operations that can panic

Behind the octets of a frame body the reader of performatives works on values.  Nothing there can
panic, but a field that holds an array of symbols preallocates memory for its elements.  `Reading`
is such a reader; those without symbols are taken over as they are (`Reading.ofFields`).

The decoded arrays are modest, so the memory asked for stays within the same limit, and the reader
gives what `Performative.decode` gives.
-/

namespace Amqp

namespace Attempt

variable {σ α : Type}

/-- Takes over a result. -/
def ofExcept (r : Except Fault α) : Attempt σ α := fun s =>
  { result := (r.mapError .refused).map fun a => (a, s) }

/-- A reader of the fields of the composite with a given name, which may ask for memory. -/
abbrev Reading (α : Type) := ReaderT String (Attempt (List Value)) α

namespace Reading

/-- Takes over a reader that asks for no memory. -/
def ofFields (r : Fields α) : Reading α := fun composite items =>
  { result := (r composite items).mapError .refused }

/-- Takes the next field off. -/
def next : Reading Value := fun _ items => { result := .ok (items.headD .null, items.tail) }

/-- Gives up because of a field that holds something else. -/
def mismatch (field : String) (found : Value) : Reading α := fun composite =>
  refuse (.malformed (.unexpectedField composite field found))

/-- Preallocates memory for a number of elements. -/
def reserve (count : Nat) : Reading Unit := fun _ => Attempt.reserve count

/-- The names in a field that holds several symbols: an array of them, or one alone. -/
def symbolsIn (field : String) : Value → Reading (Option (List String))
  | .null => return none
  | .symbol v => return some [v]
  | .array items => do
    reserve items.length
    match Fields.symbolNamesOnto items [] with
    | .ok names => return some names
    | .error found => mismatch field found
  | found => mismatch field found

/-- Reads a field that holds several symbols. -/
def symbols (field : String) : Reading (Option (List String)) := do
  symbolsIn field (← next)

/-- The composite in a field. -/
def nestedIn (ofValue : Value → Attempt (List Value) α) : Value → Reading (Option α)
  | .null => return none
  | v => fun _ => return some (← ofValue v)

/-- Reads the next field, which is a composite of its own. -/
def nested (ofValue : Value → Attempt (List Value) α) : Reading (Option α) := do
  nestedIn ofValue (← next)

end Reading

open Reading (ofFields)

/-- Reads a composite with the given name and code. -/
def readComposite (name : String) (code : UInt64) (read : Reading α) (v : Value) : Attempt σ α :=
  match v with
  | .described (.ulong found) body =>
    if found ≠ code then refuse (.malformed (.wrongDescriptor name code found))
    else
      match body with
      | .list items => apart items (read name)
      | other => refuse (.malformed (.bodyNotList name other))
  | .described found _ => refuse (.malformed (.unexpectedDescriptor name found))
  | other => refuse (.malformed (.notDescribed name other))

/-- The fields of a source. -/
def sourceFields : Reading Source := do
  let address ← ofFields (Fields.optional "address" Fields.text)
  let durable ← ofFields (Fields.optional "durable" Fields.uint)
  let expiryPolicy ← ofFields (Fields.optional "expiry_policy" Fields.text)
  let timeout ← ofFields (Fields.optional "timeout" Fields.uint)
  let dynamic ← ofFields (Fields.flag "dynamic")
  let dynamicNodeProperties ← ofFields (Fields.optional "dynamic_node_properties" Fields.map)
  let distributionMode ← ofFields (Fields.optional "distribution_mode" Fields.text)
  let filter ← ofFields (Fields.optional "filter" Fields.map)
  let defaultOutcome ← ofFields (Fields.optional "default_outcome" Fields.any)
  let outcomes ← Reading.symbols "outcomes"
  let capabilities ← Reading.symbols "capabilities"
  return { address, durable, expiryPolicy, timeout, dynamic, dynamicNodeProperties,
           distributionMode, filter, defaultOutcome, outcomes, capabilities }

/-- The fields of a target. -/
def targetFields : Reading Target := do
  let address ← ofFields (Fields.optional "address" Fields.text)
  let durable ← ofFields (Fields.optional "durable" Fields.uint)
  let expiryPolicy ← ofFields (Fields.optional "expiry_policy" Fields.text)
  let timeout ← ofFields (Fields.optional "timeout" Fields.uint)
  let dynamic ← ofFields (Fields.flag "dynamic")
  let dynamicNodeProperties ← ofFields (Fields.optional "dynamic_node_properties" Fields.map)
  let capabilities ← Reading.symbols "capabilities"
  return { address, durable, expiryPolicy, timeout, dynamic, dynamicNodeProperties, capabilities }

/-- The fields of an Open. -/
def openFields : Reading Open := do
  let containerId ← ofFields (Fields.required "container_id" Fields.text)
  let hostname ← ofFields (Fields.optional "hostname" Fields.text)
  let maxFrameSize ← ofFields (Fields.optional "max_frame_size" Fields.uint)
  let channelMax ← ofFields (Fields.optional "channel_max" Fields.ushort)
  let idleTimeout ← ofFields (Fields.optional "idle_timeout" Fields.uint)
  let outgoingLocales ← Reading.symbols "outgoing_locales"
  let incomingLocales ← Reading.symbols "incoming_locales"
  let offeredCapabilities ← Reading.symbols "offered_capabilities"
  let desiredCapabilities ← Reading.symbols "desired_capabilities"
  let properties ← ofFields (Fields.optional "properties" Fields.map)
  return { containerId, hostname, maxFrameSize, channelMax, idleTimeout, outgoingLocales,
           incomingLocales, offeredCapabilities, desiredCapabilities, properties }

/-- The fields of a Begin. -/
def beginFields : Reading Begin := do
  let remoteChannel ← ofFields (Fields.optional "remote_channel" Fields.ushort)
  let nextOutgoingId ← ofFields (Fields.required "next_outgoing_id" Fields.uint)
  let incomingWindow ← ofFields (Fields.required "incoming_window" Fields.uint)
  let outgoingWindow ← ofFields (Fields.required "outgoing_window" Fields.uint)
  let handleMax ← ofFields (Fields.optional "handle_max" Fields.uint)
  let offeredCapabilities ← Reading.symbols "offered_capabilities"
  let desiredCapabilities ← Reading.symbols "desired_capabilities"
  let properties ← ofFields (Fields.optional "properties" Fields.map)
  return { remoteChannel, nextOutgoingId, incomingWindow, outgoingWindow,
           handleMax := handleMax.getD maxHandleBound, offeredCapabilities,
           desiredCapabilities, properties }

/-- The fields of an Attach. -/
def attachFields : Reading Attach := do
  let name ← ofFields (Fields.required "name" Fields.text)
  let handle ← ofFields (Fields.required "handle" Fields.uint)
  let isReceiver ← ofFields (Fields.flag "role")
  let senderSettleMode ← ofFields (Fields.mode "snd_settle_mode" SenderSettleMode.ofCode)
  let receiverSettleMode ← ofFields (Fields.mode "rcv_settle_mode" ReceiverSettleMode.ofCode)
  let source ← Reading.nested (readComposite "source" Descriptor.source sourceFields)
  let target ← Reading.nested (readComposite "target" Descriptor.target targetFields)
  let unsettled ← ofFields (Fields.optional "unsettled" Fields.map)
  let incompleteUnsettled ← ofFields (Fields.flag "incomplete_unsettled")
  let initialDeliveryCount ← ofFields (Fields.optional "initial_delivery_count" Fields.uint)
  let maxMessageSize ← ofFields (Fields.optional "max_message_size" Fields.ulong)
  let offeredCapabilities ← Reading.symbols "offered_capabilities"
  let desiredCapabilities ← Reading.symbols "desired_capabilities"
  let properties ← ofFields (Fields.optional "properties" Fields.map)
  return { name, handle, role := .ofFlag isReceiver, senderSettleMode, receiverSettleMode,
           source, target, unsettled, incompleteUnsettled, initialDeliveryCount,
           maxMessageSize, offeredCapabilities, desiredCapabilities, properties }

/-- Reads the performative in a described value, with a given payload.  The kinds left over have no
field that holds symbols. -/
def performativeOf (code : UInt64) (v : Value) (payload : Bytes) : Attempt σ Performative :=
  if code = Descriptor.openFrame then
    return .openFrame (← readComposite "open" code openFields v)
  else if code = Descriptor.begin then
    return .begin (← readComposite "begin" code beginFields v)
  else if code = Descriptor.attach then
    return .attach (← readComposite "attach" code attachFields v)
  else ofExcept (Performative.ofValue code v payload)

/-- Reads the performative in the value at the front of a frame body, behind which there are the
octets `rest`. -/
def performativeIn (v : Value) (rest : Bytes) : Attempt σ Performative :=
  match v.descriptorCode? with
  | none => refuse (.malformed .undescribedPerformative)
  | some code => do
    let p ← performativeOf code v rest
    if p.takesPayload || rest.isEmpty then return p
    else refuse (.malformed (.trailingBytes rest.length p.name))

/-- Reads the performative in a frame body nested at most `depth` levels deep. -/
def performativeAt (depth : Nat) : Attempt Bytes Performative := do
  let v ← valueAt depth
  performativeIn v (← current)

/-! ## Readers of fields -/

section Fields

variable {limit : Nat} {β : Type}

/-- Whether a reader of fields follows another one on modest fields, and leaves such. -/
def Traces (limit : Nat) (x : Reading α) (r : Fields α) : Prop :=
  ∀ composite items, (∀ v ∈ items, v.IsModest limit) →
    Follows id limit (fun _ rest => ∀ v ∈ rest, v.IsModest limit) (x composite) (r composite) items

theorem traces_pure (a : α) : Traces limit (pure a) (pure a) :=
  fun _ _ hitems => follows_pure hitems

theorem Traces.bind {x : Reading α} {r : Fields α} {f : α → Reading β} {g : α → Fields β}
    (hx : Traces limit x r) (hf : ∀ a, Traces limit (f a) (g a)) :
    Traces limit (x >>= f) (r >>= g) :=
  fun composite items hitems => (hx composite items hitems).bind fun a rest hrest =>
    hf a composite rest hrest

theorem traces_reserve_bind {n : Nat} {x : Unit → Reading α} {r : Fields α} (hn : n ≤ limit)
    (h : Traces limit (x ()) r) : Traces limit (Reading.reserve n >>= x) r :=
  fun composite items hitems =>
    follows_reserve_bind (x := fun _ => x () composite) hn (h composite items hitems)

/-- A reader that takes one field off may be taken over. -/
theorem traces_ofFields {r : Fields α}
    (h : ∀ composite items a rest, r composite items = .ok (a, rest) → rest = items.tail) :
    Traces limit (ofFields r) r := by
  refine fun composite items hitems => ⟨rfl, nofun, fun a rest hok v hv => ?_⟩
  rw [h composite items a rest hok] at hv
  exact hitems v (List.mem_of_mem_tail hv)

theorem optional_rest (field : String) (accept : Value → Except Value α) (composite : String)
    (items : List Value) {a : Option α} {rest : List Value}
    (h : Fields.optional field accept composite items = .ok (a, rest)) : rest = items.tail := by
  unfold Fields.optional at h
  split at h
  · cases h
    rfl
  · split at h
    · cases h
      rfl
    · cases h

theorem traces_optional (field : String) (accept : Value → Except Value α) :
    Traces limit (ofFields (Fields.optional field accept)) (Fields.optional field accept) :=
  traces_ofFields fun composite items _ _ => optional_rest field accept composite items

theorem traces_required (field : String) (accept : Value → Except Value α) :
    Traces limit (ofFields (Fields.required field accept)) (Fields.required field accept) := by
  refine traces_ofFields fun composite items a rest h => ?_
  unfold Fields.required at h
  cases hread : Fields.optional field accept composite items with
  | error f =>
    rw [hread] at h
    cases h
  | ok p =>
    obtain ⟨found, rest'⟩ := p
    rw [hread] at h
    have hrest := optional_rest field accept composite items hread
    cases found with
    | none => cases h
    | some a' =>
      cases h
      exact hrest

/-- What is made of a field once it is read leaves the other fields alone. -/
theorem traces_optional_bind {β : Type} (field : String) (accept : Value → Except Value α)
    {g : Option α → Fields β}
    (hg : ∀ a composite items b rest, g a composite items = .ok (b, rest) → rest = items) :
    Traces limit (ofFields (Fields.optional field accept >>= g))
      (Fields.optional field accept >>= g) := by
  refine traces_ofFields fun composite items b rest h => ?_
  rw [Fields.bind_apply] at h
  cases hread : Fields.optional field accept composite items with
  | error f =>
    rw [hread] at h
    cases h
  | ok p =>
    rw [hread] at h
    exact (hg _ _ _ _ _ h).trans (optional_rest field accept composite items hread)

theorem traces_flag (field : String) :
    Traces limit (ofFields (Fields.flag field)) (Fields.flag field) := by
  refine traces_optional_bind field Fields.bool fun a composite items b rest h => ?_
  cases h
  rfl

theorem traces_mode (field : String) (ofCode : UInt8 → Except Fault α) :
    Traces limit (ofFields (Fields.mode field ofCode)) (Fields.mode field ofCode) := by
  refine traces_optional_bind field Fields.ubyte fun found composite items b rest h => ?_
  cases found with
  | none =>
    cases h
    rfl
  | some code =>
    dsimp only at h
    cases hmode : ofCode code with
    | error f =>
      rw [hmode] at h
      cases h
    | ok mode =>
      rw [hmode] at h
      cases h
      rfl

theorem headD_isModest {items : List Value} (h : ∀ v ∈ items, v.IsModest limit) :
    (items.headD .null).IsModest limit := by
  cases items with
  | nil => exact nofun
  | cons v items => exact h v List.mem_cons_self

/-- A field may be looked at once it is taken off. -/
theorem traces_next {x : Value → Reading α} {r : Fields α} {read : Value → Fields α}
    (hread : ∀ composite items, r composite items = read (items.headD .null) composite items.tail)
    (h : ∀ v : Value, v.IsModest limit → Traces limit (x v) (read v)) :
    Traces limit (Reading.next >>= x) r := by
  intro composite items hitems
  have htail : ∀ v ∈ items.tail, v.IsModest limit := fun v hv => hitems v (List.mem_of_mem_tail hv)
  have hhead := h (items.headD .null) (headD_isModest hitems) composite items.tail htail
  exact hhead.of_eq rfl (hread composite items)

/-- What `Fields.optional` makes of the content of a field. -/
def accepted (field : String) : Except Value α → Fields (Option α)
  | .ok a => pure (some a)
  | .error found => fun composite _ => .error (.malformed (.unexpectedField composite field found))

/-- What `Fields.optional` makes of a field. -/
def contentIn (field : String) (accept : Value → Except Value α) : Value → Fields (Option α)
  | .null => pure none
  | v => accepted field (accept v)

theorem optional_eq_contentIn (field : String) (accept : Value → Except Value α)
    (composite : String) (items : List Value) :
    Fields.optional field accept composite items =
      contentIn field accept (items.headD .null) composite items.tail := by
  unfold Fields.optional
  generalize items.headD .null = v
  cases v with
  | null => rfl
  | _ =>
    simp only [contentIn]
    cases accept _ <;> rfl

theorem traces_symbolsIn (field : String) {v : Value} (hv : v.IsModest limit) :
    Traces limit (Reading.symbolsIn field v) (contentIn field Fields.symbols v) := by
  cases v with
  | null => exact traces_pure none
  | symbol name => exact traces_pure (some [name])
  | array elements =>
    have hlength : elements.length ≤ limit := hv elements (.refl _)
    rw [Reading.symbolsIn]
    refine traces_reserve_bind hlength ?_
    change Traces limit _ (accepted field (Fields.symbolNamesOnto elements []))
    cases Fields.symbolNamesOnto elements [] with
    | ok names => exact traces_pure (some names)
    | error found => exact fun _ _ _ => follows_refuse _ _
  | _ => exact fun _ _ _ => follows_refuse _ _

theorem traces_symbols (field : String) :
    Traces limit (Reading.symbols field) (Fields.optional field Fields.symbols) :=
  traces_next (optional_eq_contentIn field Fields.symbols) fun _ => traces_symbolsIn field

end Fields

/-! ## Composites -/

section Composites

variable {limit : Nat}

/-- Whether an attempt follows a result, and leaves what there is to read alone. -/
abbrev Yields (limit : Nat) (x : Attempt σ α) (r : Except Fault α) (s : σ) : Prop :=
  Follows id limit (fun _ rest => rest = s) x (StateT.lift r) s

theorem yields_refuse (f : Fault) (s : σ) :
    Yields limit (refuse f : Attempt σ α) (.error f) s := follows_refuse _ f

theorem yields_ofExcept (r : Except Fault α) (s : σ) : Yields limit (ofExcept r) r s := by
  cases r with
  | ok a => exact (follows_pure (a := a) (s := s) (P := fun _ rest => rest = s) rfl).of_eq rfl rfl
  | error f => exact (yields_refuse f s).of_eq rfl rfl

theorem yields_apart {x : Reading α} {r : Fields α} (hx : Traces limit x r) {items : List Value}
    (hitems : ∀ v ∈ items, v.IsModest limit) (name : String) (s : σ) :
    Yields limit (apart items (x name)) ((r name items).map Prod.fst) s := by
  have h := hx name items hitems
  have hresult := h.result_eq
  have happart : (apart items (x name) s).result =
      ((x name) items).result.map fun (a, _) => (a, s) := rfl
  refine ⟨?_, h.requests_le, ?_⟩
  · rw [happart, hresult]
    cases r name items <;> rfl
  · intro a rest hok
    cases hr : r name items with
    | error f =>
      rw [hr] at hok
      cases hok
    | ok p =>
      rw [hr] at hok
      cases hok
      rfl

theorem yields_readComposite {x : Reading α} {r : Fields α} (hx : Traces limit x r)
    (name : String) (code : UInt64) {v : Value} (hv : v.IsModest limit) (s : σ) :
    Yields limit (readComposite name code x v) (Amqp.readComposite name code r v) s := by
  cases v with
  | described descriptor body =>
    cases descriptor with
    | ulong found =>
      unfold readComposite Amqp.readComposite
      dsimp only
      split_ifs
      · exact yields_refuse _ s
      · cases body with
        | list items =>
          have hitems : ∀ item ∈ items, item.IsModest limit := Value.IsModest.item hv.content
          refine (yields_apart hx hitems name s).of_eq rfl ?_
          cases hr : r name items <;> simp only [StateT.lift, hr] <;> rfl
        | _ => exact yields_refuse _ s
    | _ => exact yields_refuse _ s
  | _ => exact yields_refuse _ s

/-- What `Fields.nested` makes of a field. -/
def compositeIn (ofValue : Value → Except Fault α) : Value → Fields (Option α)
  | .null => pure none
  | v => fun _ => do return some (← StateT.lift (ofValue v))

theorem nested_eq_compositeIn (ofValue : Value → Except Fault α) (composite : String)
    (items : List Value) :
    Fields.nested ofValue composite items =
      compositeIn ofValue (items.headD .null) composite items.tail := by
  unfold Fields.nested
  generalize items.headD .null = v
  cases v with
  | null => rfl
  | _ =>
    simp only [compositeIn]
    cases ofValue _ <;> rfl

theorem traces_nested {x : Value → Attempt (List Value) α} {r : Value → Except Fault α}
    (h : ∀ v : Value, v.IsModest limit → ∀ items, Yields limit (x v) (r v) items) :
    Traces limit (Reading.nested x) (Fields.nested r) := by
  refine traces_next (nested_eq_compositeIn r) fun v hv => ?_
  have hsome : ∀ items : List Value, (∀ v ∈ items, v.IsModest limit) →
      Follows id limit (fun _ rest => ∀ v ∈ rest, v.IsModest limit)
        (x v >>= fun a => pure (some a)) (StateT.lift (r v) >>= fun a => pure (some a)) items :=
    fun items hitems => (h v hv items).bind fun a rest hrest => follows_pure (hrest ▸ hitems)
  cases v with
  | null => exact traces_pure none
  | _ => exact fun _ items hitems => hsome items hitems

theorem traces_sourceFields : Traces limit sourceFields Source.fields :=
  (traces_optional _ _).bind fun _ => (traces_optional _ _).bind fun _ =>
  (traces_optional _ _).bind fun _ => (traces_optional _ _).bind fun _ =>
  (traces_flag _).bind fun _ => (traces_optional _ _).bind fun _ =>
  (traces_optional _ _).bind fun _ => (traces_optional _ _).bind fun _ =>
  (traces_optional _ _).bind fun _ => (traces_symbols _).bind fun _ =>
  (traces_symbols _).bind fun _ => traces_pure _

theorem traces_targetFields : Traces limit targetFields Target.fields :=
  (traces_optional _ _).bind fun _ => (traces_optional _ _).bind fun _ =>
  (traces_optional _ _).bind fun _ => (traces_optional _ _).bind fun _ =>
  (traces_flag _).bind fun _ => (traces_optional _ _).bind fun _ =>
  (traces_symbols _).bind fun _ => traces_pure _

theorem traces_openFields : Traces limit openFields Open.fields :=
  (traces_required _ _).bind fun _ => (traces_optional _ _).bind fun _ =>
  (traces_optional _ _).bind fun _ => (traces_optional _ _).bind fun _ =>
  (traces_optional _ _).bind fun _ => (traces_symbols _).bind fun _ =>
  (traces_symbols _).bind fun _ => (traces_symbols _).bind fun _ =>
  (traces_symbols _).bind fun _ => (traces_optional _ _).bind fun _ => traces_pure _

theorem traces_beginFields : Traces limit beginFields Begin.fields :=
  (traces_optional _ _).bind fun _ => (traces_required _ _).bind fun _ =>
  (traces_required _ _).bind fun _ => (traces_required _ _).bind fun _ =>
  (traces_optional _ _).bind fun _ => (traces_symbols _).bind fun _ =>
  (traces_symbols _).bind fun _ => (traces_optional _ _).bind fun _ => traces_pure _

theorem traces_attachFields : Traces limit attachFields Attach.fields :=
  (traces_required _ _).bind fun _ => (traces_required _ _).bind fun _ =>
  (traces_flag _).bind fun _ => (traces_mode _ _).bind fun _ =>
  (traces_mode _ _).bind fun _ =>
  (traces_nested fun _ hv => yields_readComposite traces_sourceFields _ _ hv).bind fun _ =>
  (traces_nested fun _ hv => yields_readComposite traces_targetFields _ _ hv).bind fun _ =>
  (traces_optional _ _).bind fun _ => (traces_flag _).bind fun _ =>
  (traces_optional _ _).bind fun _ => (traces_optional _ _).bind fun _ =>
  (traces_symbols _).bind fun _ => (traces_symbols _).bind fun _ =>
  (traces_optional _ _).bind fun _ => traces_pure _

/-! ## Frame bodies -/

theorem yields_bind {β : Type} {x : Attempt σ α} {r : Except Fault α} {f : α → Attempt σ β}
    {g : α → Except Fault β} {s : σ} (hx : Yields limit x r s)
    (hf : ∀ a, Yields limit (f a) (g a) s) : Yields limit (x >>= f) (r >>= g) s := by
  have hbind : Follows id limit (fun _ rest => rest = s) (x >>= f)
      (StateT.lift r >>= fun a => StateT.lift (g a)) s := by
    refine Follows.bind hx fun a rest hrest => ?_
    subst hrest
    exact hf a
  refine hbind.of_eq rfl ?_
  cases r <;> rfl

theorem yields_map {β : Type} {x : Attempt σ α} {r : Except Fault α} {s : σ}
    (h : Yields limit x r s) (f : α → β) :
    Yields limit (x >>= fun a => pure (f a)) (f <$> r) s := by
  have hpure := yields_bind h fun a => yields_ofExcept (.ok (f a)) s
  refine hpure.of_eq rfl ?_
  cases r <;> rfl

theorem yields_performativeOf (code : UInt64) {v : Value} (hv : v.IsModest limit) (payload : Bytes)
    (s : σ) :
    Yields limit (performativeOf code v payload) (Performative.ofValue code v payload) s := by
  by_cases hopen : code = Descriptor.openFrame
  · rw [performativeOf, if_pos hopen, Performative.ofValue, if_pos hopen]
    exact yields_map (yields_readComposite traces_openFields _ _ hv s) _
  by_cases hbegin : code = Descriptor.begin
  · rw [performativeOf, if_neg hopen, if_pos hbegin, Performative.ofValue, if_neg hopen,
      if_pos hbegin]
    exact yields_map (yields_readComposite traces_beginFields _ _ hv s) _
  by_cases hattach : code = Descriptor.attach
  · rw [performativeOf, if_neg hopen, if_neg hbegin, if_pos hattach, Performative.ofValue,
      if_neg hopen, if_neg hbegin, if_pos hattach]
    exact yields_map (yields_readComposite traces_attachFields _ _ hv s) _
  · rw [performativeOf, if_neg hopen, if_neg hbegin, if_neg hattach]
    exact yields_ofExcept _ s

/-- The performative in the value at the front of a frame body: `Performative.decode` behind the
value. -/
def inValue (v : Value) (rest : Bytes) : Except Fault Performative :=
  match v.descriptorCode? with
  | none => .error (.malformed .undescribedPerformative)
  | some code => do
    let p ← Performative.ofValue code v rest
    if p.takesPayload || rest.isEmpty then return p
    else .error (.malformed (.trailingBytes rest.length p.name))

theorem yields_performativeIn {v : Value} (hv : v.IsModest limit) (rest : Bytes) (s : σ) :
    Yields limit (performativeIn v rest) (inValue v rest) s := by
  unfold performativeIn inValue
  cases v.descriptorCode? with
  | none => exact yields_refuse _ s
  | some code =>
    refine yields_bind (yields_performativeOf code hv rest s) fun p => ?_
    split_ifs
    · exact yields_ofExcept (.ok p) s
    · exact yields_refuse _ s

/-- The performative in a frame body, with what is left behind its value. -/
def bodyReader : StateT Bytes (Except Fault) Performative := do
  let v ← fun b => (Value.decode b).mapError .malformed
  StateT.lift (inValue v (← get))

theorem decode_eq_bodyReader (b : Bytes) :
    Performative.decode b = (bodyReader b).map Prod.fst := by
  unfold Performative.decode bodyReader
  rw [reader_bind_apply]
  cases Value.decode b with
  | error m => rfl
  | ok p =>
    obtain ⟨v, rest⟩ := p
    change inValue v rest = (StateT.lift (inValue v rest) rest).map Prod.fst
    cases inValue v rest <;> rfl

/-- Reading a performative gives what `Performative.decode` gives, at any depth above the number of
octets. -/
theorem follows_performativeAt {b : Bytes} {depth : Nat} (hdepth : b.length < depth) :
    Follows id (max Value.maxEmptyElements b.length) (fun _ _ => True) (performativeAt depth)
      bodyReader b := by
  refine (serves_decode hdepth).mapError.bind fun v rest ⟨hv, _⟩ => ?_
  refine follows_current_bind ?_
  exact (yields_performativeIn hv rest rest).mono fun _ _ _ => trivial

end Composites

end Attempt

end Amqp
