import Amqp.Proofs.Performative.Splitting

/-!
# Plain performatives

A plain performative is made of numbers and flags: it brings no names, addresses, capabilities,
properties, errors or payload.  Its frame has 64 octets at most (`size_le_of_isPlain`), since field
by field it has no more to write than the performative of its kind with the greatest numbers and all
its flags.
-/

namespace Amqp

/-- Whether a delivery state brings neither an error nor annotations. -/
def DeliveryState.isPlain : DeliveryState → Bool
  | rejected error => error.isNone
  | modified _ _ messageAnnotations => messageAnnotations.isNone
  | _ => true

theorem lighter_ushort (n : UInt16) : Lighter (.ushort n) (.ushort 65535) :=
  ⟨nofun, Nat.le_of_eq rfl⟩

theorem length_encode_ulong_le (n : UInt64) : (Value.ulong n).encode.length ≤ 9 := by
  unfold Value.encode
  split_ifs <;> simp

theorem lighter_ulong (n : UInt64) : Lighter (.ulong n) (.ulong 18446744073709551615) :=
  ⟨nofun, length_encode_ulong_le n⟩

theorem lighter_bool (on : Bool) : Lighter (.bool on) (.bool true) := by
  cases on
  · exact ⟨nofun, Nat.le_of_eq rfl⟩
  · exact .refl _

/-- Of all plain delivery states, the place that has been reached takes the most room. -/
theorem DeliveryState.lighter_of_isPlain {state : DeliveryState} (h : state.isPlain = true) :
    Lighter state.toValue (received 4294967295 18446744073709551615).toValue := by
  refine ⟨nofun, ?_⟩
  cases state with
  | received number offset =>
    refine length_encode_composite_le ?_
    exact .cons (lighter_uint number) (.cons (lighter_ulong offset) .nil)
  | accepted | released => decide
  | rejected error =>
    obtain rfl : error = none := Option.isNone_iff_eq_none.1 h
    decide
  | modified failed undeliverable messageAnnotations =>
    obtain rfl : messageAnnotations = none := Option.isNone_iff_eq_none.1 h
    cases failed <;> cases undeliverable <;> decide

namespace Performative

/-- Whether a performative is made of numbers and flags only. -/
def isPlain : Performative → Bool
  | begin v =>
    v.offeredCapabilities.isNone && v.desiredCapabilities.isNone && v.properties.isNone
  | flow v => v.properties.isNone
  | disposition v => v.state.all DeliveryState.isPlain
  | detach v => v.error.isNone
  | endFrame v => v.error.isNone
  | close v => v.error.isNone
  | _ => false

/-- A performative whose fields are lighter than others has a frame that is no greater. -/
theorem size_le_of_lighter {p : Performative} {code : UInt64} {fields : List Value} {n : Nat}
    (widest : List Value) (hvalue : p.toValue = composite code fields)
    (hpayload : p.payload = []) (hlighter : List.Forall₂ Lighter fields widest)
    (hwidest : (composite code widest).encode.length + frameHeaderSize ≤ n) :
    Frame.size p ≤ n := by
  have hfields : (composite code fields).encode.length ≤ (composite code widest).encode.length :=
    length_encode_composite_le hlighter
  unfold Frame.size encode
  rw [hvalue, hpayload, List.append_nil]
  omega

theorem size_begin_le {v : Begin} (hoffered : v.offeredCapabilities = none)
    (hdesired : v.desiredCapabilities = none) (hproperties : v.properties = none) :
    Frame.size (.begin v) ≤ 64 := by
  obtain ⟨channel, next, incoming, outgoing, greatest, offered, desired, properties⟩ := v
  dsimp only at hoffered hdesired hproperties
  subst hoffered hdesired hproperties
  refine size_le_of_lighter
    [.ushort 65535, .uint 4294967295, .uint 4294967295, .uint 4294967295, .uint 4294967295, .null,
      .null, .null] rfl rfl ?_ (by decide)
  refine .cons (lighter_ofOption lighter_ushort channel) (.cons (lighter_uint next) ?_)
  refine .cons (lighter_uint incoming) (.cons (lighter_uint outgoing) ?_)
  refine .cons (lighter_uint greatest) (.cons (.refl _) ?_)
  exact .cons (.refl _) (.cons (.refl _) .nil)

theorem size_flow_le {v : Flow} (h : v.properties = none) : Frame.size (.flow v) ≤ 64 := by
  obtain ⟨nextIncoming, incoming, next, outgoing, handle, count, credit, available, drain, echo,
    properties⟩ := v
  dsimp only at h
  subst h
  refine size_le_of_lighter
    [.uint 4294967295, .uint 4294967295, .uint 4294967295, .uint 4294967295, .uint 4294967295,
      .uint 4294967295, .uint 4294967295, .uint 4294967295, .bool true, .bool true, .null]
    rfl rfl ?_ (by decide)
  refine .cons (lighter_ofOption_uint nextIncoming) (.cons (lighter_uint incoming) ?_)
  refine .cons (lighter_uint next) (.cons (lighter_uint outgoing) ?_)
  refine .cons (lighter_ofOption_uint handle) (.cons (lighter_ofOption_uint count) ?_)
  refine .cons (lighter_ofOption_uint credit) (.cons (lighter_ofOption_uint available) ?_)
  exact .cons (lighter_ofFlag drain) (.cons (lighter_ofFlag echo) (.cons (.refl _) .nil))

theorem size_disposition_le {v : Disposition} (h : v.state.all DeliveryState.isPlain = true) :
    Frame.size (.disposition v) ≤ 64 := by
  obtain ⟨role, first, last, settled, state, batchable⟩ := v
  have hstate : Lighter (.ofOption DeliveryState.toValue state)
      (DeliveryState.received 4294967295 18446744073709551615).toValue := by
    cases state with
    | none => exact lighter_null _
    | some state => exact DeliveryState.lighter_of_isPlain h
  refine size_le_of_lighter
    [.bool true, .uint 4294967295, .uint 4294967295, .bool true,
      (DeliveryState.received 4294967295 18446744073709551615).toValue, .bool true]
    rfl rfl ?_ (by decide)
  refine .cons (lighter_bool _) (.cons (lighter_uint first) ?_)
  refine .cons (lighter_ofOption_uint last) (.cons (lighter_ofFlag settled) ?_)
  exact .cons hstate (.cons (lighter_ofFlag batchable) .nil)

theorem size_detach_le {v : Detach} (h : v.error = none) : Frame.size (.detach v) ≤ 64 := by
  obtain ⟨handle, closed, error⟩ := v
  dsimp only at h
  subst h
  refine size_le_of_lighter [.uint 4294967295, .bool true, .null] rfl rfl ?_ (by decide)
  exact .cons (lighter_uint handle) (.cons (lighter_ofFlag closed) (.cons (.refl _) .nil))

/-- The frame of a plain performative is small, whatever numbers and flags it is made of. -/
theorem size_le_of_isPlain {p : Performative} (h : p.isPlain = true) : Frame.size p ≤ 64 := by
  have hnone {α : Type} {o : Option α} (ho : o.isNone = true) : o = none :=
    Option.isNone_iff_eq_none.1 ho
  cases p with
  | openFrame | attach | transfer => cases h
  | begin v =>
    simp only [isPlain, Bool.and_eq_true] at h
    exact size_begin_le (hnone h.1.1) (hnone h.1.2) (hnone h.2)
  | flow v => exact size_flow_le (hnone h)
  | disposition v => exact size_disposition_le h
  | detach v => exact size_detach_le (hnone h)
  | endFrame v =>
    obtain ⟨error⟩ := v
    obtain rfl := hnone h
    show (composite Descriptor.endFrame [.null]).encode.length + frameHeaderSize ≤ 64
    decide
  | close v =>
    obtain ⟨error⟩ := v
    obtain rfl := hnone h
    show (composite Descriptor.close [.null]).encode.length + frameHeaderSize ≤ 64
    decide

end Performative

end Amqp
