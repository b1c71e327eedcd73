import Amqp.Proofs.Performative.RoundTrip
import Amqp.Proofs.Value.Locality

/-!
# Where a performative ends

The value at the front of a frame body ends where it does whatever follows it.  So the performative
is the same for every payload behind it, but for the payload itself (`ofValue_eq`), and the front of
the body that it takes up is read alike with any other payload (`exists_front_of_decode`).
-/

namespace Amqp

/-! ## Payloads -/

/-- Of the fields of a transfer the payload alone comes from behind the value. -/
theorem Transfer.fields_eq (payload : Bytes) :
    Transfer.fields payload = (fun t : Transfer => { t with payload }) <$> Transfer.fields [] := by
  simp only [Transfer.fields, map_bind, map_pure]

theorem readComposite_map {α β : Type} (f : α → β) (name : String) (code : UInt64)
    (read : Fields α) (v : Value) :
    readComposite name code (f <$> read) v = f <$> readComposite name code read v := by
  unfold readComposite
  split
  · rename_i found body
    by_cases hcode : found ≠ code
    · rw [if_pos hcode, if_pos hcode]
      rfl
    · rw [if_neg hcode, if_neg hcode]
      cases body with
      | list items =>
        have hmap : (f <$> read) name items = Prod.map f id <$> read name items := rfl
        dsimp only
        rw [hmap]
        cases read name items <;> rfl
      | _ => rfl
  · rfl
  · rfl

namespace Performative

/-- The performative with another payload behind it, if it is a transfer. -/
def withPayload (payload : Bytes) : Performative → Performative
  | transfer t => transfer { t with payload }
  | p => p

theorem payload_withPayload {p : Performative} (h : p.takesPayload = true) (payload : Bytes) :
    (p.withPayload payload).payload = payload := by
  cases p with
  | transfer t => rfl
  | _ => cases h

theorem takesPayload_withPayload (p : Performative) (payload : Bytes) :
    (p.withPayload payload).takesPayload = p.takesPayload := by
  cases p <;> rfl

theorem withPayload_withPayload (p : Performative) (payload payload' : Bytes) :
    (p.withPayload payload).withPayload payload' = p.withPayload payload' := by
  cases p <;> rfl

theorem payload_of_not_takesPayload {p : Performative} (h : p.takesPayload = false) :
    p.payload = [] := by
  cases p with
  | transfer t => cases h
  | _ => rfl

theorem map_eq_withPayload_map {α : Type} {kind : α → Performative} {payload : Bytes}
    (h : ∀ a, (kind a).withPayload payload = kind a) (x : Except Fault α) :
    kind <$> x = withPayload payload <$> kind <$> x := by
  cases x with
  | error f => rfl
  | ok a => exact congrArg Except.ok (h a).symm

theorem ite_eq_map {c : Prop} [Decidable c] {f : Performative → Performative}
    {x y x' y' : Except Fault Performative} (hx : x = f <$> x') (hy : y = f <$> y') :
    (if c then x else y) = f <$> (if c then x' else y') := by
  by_cases h : c
  · rw [if_pos h, if_pos h, hx]
  · rw [if_neg h, if_neg h, hy]

/-- A value means the same performative with every payload. -/
theorem ofValue_eq (code : UInt64) (v : Value) (payload : Bytes) :
    ofValue code v payload = withPayload payload <$> ofValue code v [] := by
  refine ite_eq_map (map_eq_withPayload_map (fun _ => rfl) _) ?_
  refine ite_eq_map (map_eq_withPayload_map (fun _ => rfl) _) ?_
  refine ite_eq_map (map_eq_withPayload_map (fun _ => rfl) _) ?_
  refine ite_eq_map (map_eq_withPayload_map (fun _ => rfl) _) ?_
  refine ite_eq_map ?_ ?_
  · rw [Transfer.fields_eq, readComposite_map]
    cases readComposite "transfer" code (Transfer.fields []) v <;> rfl
  refine ite_eq_map (map_eq_withPayload_map (fun _ => rfl) _) ?_
  refine ite_eq_map (map_eq_withPayload_map (fun _ => rfl) _) ?_
  refine ite_eq_map (map_eq_withPayload_map (fun _ => rfl) _) ?_
  refine ite_eq_map (map_eq_withPayload_map (fun _ => rfl) _) ?_
  rfl

/-! ## Frame bodies -/

theorem decode_of_ofValue {body rest : Bytes} {v : Value} {code : UInt64} {p : Performative}
    (hvalue : Value.decode body = .ok (v, rest)) (hcode : v.descriptorCode? = some code)
    (hp : ofValue code v rest = .ok p) (hend : (p.takesPayload || rest.isEmpty) = true) :
    decode body = .ok p := by
  unfold decode
  rw [hvalue]
  simp only [Except.mapError, bind, Except.bind, hcode, hp, hend, if_true]
  rfl

/-- A frame body holds a described value, and nothing behind it that does not belong to it. -/
theorem exists_of_decode {body : Bytes} {p : Performative} (h : decode body = .ok p) :
    ∃ v rest code, Value.decode body = .ok (v, rest) ∧ v.descriptorCode? = some code ∧
      ofValue code v rest = .ok p ∧ (p.takesPayload || rest.isEmpty) = true := by
  unfold decode at h
  cases hvalue : Value.decode body with
  | error m =>
    rw [hvalue] at h
    cases h
  | ok r =>
    obtain ⟨v, rest⟩ := r
    rw [hvalue] at h
    dsimp only [Except.mapError, bind, Except.bind] at h
    cases hcode : v.descriptorCode? with
    | none =>
      rw [hcode] at h
      cases h
    | some code =>
      rw [hcode] at h
      dsimp only at h
      cases hp : ofValue code v rest with
      | error f =>
        rw [hp] at h
        cases h
      | ok q =>
        rw [hp] at h
        change (if q.takesPayload || rest.isEmpty then _ else _) = _ at h
        by_cases hend : (q.takesPayload || rest.isEmpty) = true
        · rw [if_pos hend] at h
          obtain rfl : q = p := Except.ok.inj h
          exact ⟨v, rest, code, rfl, hcode, hp, hend⟩
        · rw [if_neg hend] at h
          cases h

/-- What stands behind the value of a performative is its payload. -/
theorem payload_of_ofValue {code : UInt64} {v : Value} {rest : Bytes} {p : Performative}
    (hp : ofValue code v rest = .ok p) (hend : (p.takesPayload || rest.isEmpty) = true) :
    p.payload = rest := by
  rw [ofValue_eq] at hp
  obtain ⟨q, -, rfl⟩ := exists_of_map_eq_ok hp
  cases htakes : q.takesPayload with
  | true => exact payload_withPayload htakes rest
  | false =>
    rw [← takesPayload_withPayload q rest] at htakes
    rw [htakes, Bool.false_or, List.isEmpty_iff] at hend
    rw [payload_of_not_takesPayload htakes, hend]

/-- A performative takes up the same octets of a frame body with every payload behind it. -/
theorem exists_front_of_decode {body : Bytes} {p : Performative} (h : decode body = .ok p) :
    ∃ front, front ≠ [] ∧ body = front ++ p.payload ∧
      ∀ payload, (p.takesPayload || payload.isEmpty) = true →
        decode (front ++ payload) = .ok (p.withPayload payload) := by
  obtain ⟨v, rest, code, hvalue, hcode, hp, hend⟩ := exists_of_decode h
  obtain ⟨front, hne, hbody, hfront⟩ := Value.exists_front_of_decode hvalue
  refine ⟨front, hne, by rw [payload_of_ofValue hp hend, hbody], fun payload hpayload => ?_⟩
  rw [ofValue_eq] at hp
  obtain ⟨q, hq, rfl⟩ := exists_of_map_eq_ok hp
  rw [withPayload_withPayload]
  refine decode_of_ofValue (hfront payload) hcode ?_ ?_
  · rw [ofValue_eq, hq]
    rfl
  · rw [takesPayload_withPayload] at hpayload ⊢
    exact hpayload

/-- The decoder of values takes at least one octet, and gives the same value and takes the same
octets whatever follows them.  So no octets that decode to a value are a proper front part of others
that do, and a transfer ends where it does whatever its payload is: with any other payload behind
the same octets it is the same transfer but for the payload. -/
theorem decode_front_append :
    (∀ (b : Bytes) (v : Value) (rest : Bytes), Value.decode b = .ok (v, rest) →
      ∃ front, front ≠ [] ∧ b = front ++ rest ∧
        ∀ after, Value.decode (front ++ after) = .ok (v, after)) ∧
    (∀ (front back : Bytes) (v w : Value), Value.decode front = .ok (v, []) →
      Value.decode (front ++ back) = .ok (w, []) → back = []) ∧
    (∀ (body : Bytes) (t : Transfer), decode body = .ok (.transfer t) →
      ∃ front, front ≠ [] ∧ body = front ++ t.payload ∧
        ∀ payload, decode (front ++ payload) = .ok (.transfer { t with payload })) := by
  refine ⟨fun b v rest h => Value.exists_front_of_decode h,
    fun front back v w h h' => Value.eq_nil_of_decode_append h h', fun body t h => ?_⟩
  obtain ⟨front, hne, hbody, hfront⟩ := exists_front_of_decode h
  exact ⟨front, hne, hbody, fun payload => hfront payload rfl⟩

/-- The octets of a transfer on handle 7, with its descriptor and its list in wide forms. -/
def wideTransfer : Bytes :=
  [0x00, 0x80, 0, 0, 0, 0, 0, 0, 0, 0x14, 0xD0, 0, 0, 0, 6, 0, 0, 0, 1, 0x52, 7]

theorem decode_wideTransfer_append :
    Value.decode wideTransfer = .ok (.described (.ulong 0x14) (.list [.uint 7]), []) ∧
    decode (wideTransfer ++ [0x40]) = .ok (.transfer { handle := 7, payload := [0x40] }) ∧
    decode (wideTransfer ++ [1, 2, 3]) = .ok (.transfer { handle := 7, payload := [1, 2, 3] }) ∧
    ∀ back w, Value.decode (wideTransfer ++ back) = .ok (w, []) → back = [] := by
  have hvalue : Value.decode wideTransfer =
      .ok (.described (.ulong 0x14) (.list [.uint 7]), []) := by rfl
  have hbody : decode (wideTransfer ++ [0x40]) =
      .ok (.transfer { handle := 7, payload := [0x40] }) := by rfl
  obtain ⟨front, -, hfront, hread⟩ := decode_front_append.2.2 _ _ hbody
  obtain rfl : wideTransfer = front := List.append_cancel_right hfront
  exact ⟨hvalue, hbody, hread [1, 2, 3], fun back w => decode_front_append.2.1 _ back _ w hvalue⟩

end Performative

end Amqp
