import Amqp.Value.Decoding

/-!
# Rules for readers of octets

`Reads r b a` says that the reader `r` takes exactly the octets `b` from the front of its input,
whatever follows them, and gives `a`.  `Yields r P` says that whatever `r` gives satisfies `P`.
Both follow the structure of a reader: there is one rule for each way of putting readers together.
-/

namespace Amqp.Value.Decoder

variable {α β : Type}

/-- The reader takes exactly the octets `b` and gives `a`. -/
def Reads (r : Decoder α) (b : Bytes) (a : α) : Prop := ∀ rest, r (b ++ rest) = .ok (a, rest)

/-- Whatever the reader gives satisfies `P`. -/
def Yields (r : Decoder α) (P : α → Prop) : Prop := ∀ b a rest, r b = .ok (a, rest) → P a

/-! ## Sequences of readers -/

theorem bind_apply (r : Decoder α) (f : α → Decoder β) (b : Bytes) :
    (r >>= f) b =
      match r b with
      | .ok (a, rest) => f a rest
      | .error m => .error m := by
  change (StateT.bind r f) b = _
  unfold StateT.bind
  cases r b <;> rfl

/-- What a sequence of readers gives comes from what its first part gives and leaves. -/
theorem exists_of_bind_eq_ok {r : Decoder α} {f : α → Decoder β} {b rest : Bytes} {x : β}
    (h : (r >>= f) b = .ok (x, rest)) :
    ∃ a middle, r b = .ok (a, middle) ∧ f a middle = .ok (x, rest) := by
  rw [bind_apply] at h
  cases hb : r b with
  | error m =>
    rw [hb] at h
    cases h
  | ok p =>
    rw [hb] at h
    exact ⟨p.1, p.2, rfl, h⟩

theorem reads_pure (a : α) : Reads (pure a) [] a := fun _ => rfl

theorem Reads.bind {r : Decoder α} {f : α → Decoder β} {b c : Bytes} {a : α} {x : β}
    (hr : Reads r b a) (hf : Reads (f a) c x) : Reads (r >>= f) (b ++ c) x := by
  intro rest
  rw [bind_apply, List.append_assoc, hr]
  exact hf rest

theorem Reads.bind_nil {r : Decoder α} {f : α → Decoder β} {b : Bytes} {a : α} {x : β}
    (hr : Reads r b a) (hf : Reads (f a) [] x) : Reads (r >>= f) b x := by
  have h := hr.bind hf
  rwa [List.append_nil] at h

theorem Reads.map {r : Decoder α} {b : Bytes} {a : α} (hr : Reads r b a) (f : α → β) :
    Reads (r >>= fun a => pure (f a)) b (f a) :=
  hr.bind_nil (f := fun a => pure (f a)) (reads_pure (f a))

theorem Reads.map_eq {r : Decoder α} {f : α → β} {b : Bytes} {a : α} {x : β} (hr : Reads r b a)
    (h : f a = x) : Reads (r >>= fun a => pure (f a)) b x :=
  h ▸ hr.map f

/-- A reader may look at all octets that are left. -/
theorem reads_get_bind {f : Bytes → Decoder β} {b : Bytes} {x : β}
    (h : ∀ rest, Reads (f (b ++ rest)) b x) : Reads (get >>= f) b x := by
  intro rest
  rw [bind_apply]
  exact h rest rest

theorem yields_pure {P : α → Prop} {a : α} (h : P a) : Yields (pure a) P := by
  intro b a' rest e
  obtain ⟨rfl, -⟩ := Prod.mk.inj (Except.ok.inj e)
  exact h

theorem yields_fail {P : α → Prop} (m : Malformation) : Yields (fail m) P := by
  intro b a rest e
  cases e

theorem Yields.mono {r : Decoder α} {P Q : α → Prop} (h : Yields r P) (hPQ : ∀ a, P a → Q a) :
    Yields r Q := fun b a rest e => hPQ a (h b a rest e)

theorem yields_true (r : Decoder α) : Yields r fun _ => True := fun _ _ _ _ => trivial

theorem Yields.bind {r : Decoder α} {f : α → Decoder β} {P : α → Prop} {Q : β → Prop}
    (hr : Yields r P) (hf : ∀ a, P a → Yields (f a) Q) : Yields (r >>= f) Q := by
  intro b x rest e
  obtain ⟨a, middle, ha, hx⟩ := exists_of_bind_eq_ok e
  exact hf a (hr b a middle ha) middle x rest hx

/-- A reader whose parts do not matter gives what its last step makes of them. -/
theorem yields_bind {r : Decoder α} {f : α → Decoder β} {Q : β → Prop}
    (hf : ∀ a, Yields (f a) Q) : Yields (r >>= f) Q :=
  (yields_true r).bind fun a _ => hf a

/-! ## Octets and words -/

theorem reads_octets (what : String) (b : Bytes) : Reads (octets what b.length) b b := by
  intro rest
  rw [octets, Bytes.split?_append]

theorem eq_append_of_octets {what : String} {n : Nat} {b front rest : Bytes}
    (h : octets what n b = .ok (front, rest)) : b = front ++ rest ∧ front.length = n := by
  unfold octets at h
  cases hsplit : Bytes.split? b n with
  | none =>
    rw [hsplit] at h
    cases h
  | some r =>
    rw [hsplit] at h
    cases h
    exact Bytes.split?_eq_some_iff.1 hsplit

theorem reads_word (what : String) {w n : Nat} (h : n < Word.count w) :
    Reads (word what w) (Word.encode w n) n := by
  have hb := reads_octets what (Word.encode w n)
  rw [Word.length_encode] at hb
  have hn := hb.map Word.decode
  rwa [Word.decode_encode_of_lt h] at hn

theorem reads_word_two (what : String) (x : UInt16) :
    Reads (word what 2) (Word.encode 2 x.toNat) x.toNat := reads_word what x.toNat_lt

theorem reads_word_four (what : String) (x : UInt32) :
    Reads (word what 4) (Word.encode 4 x.toNat) x.toNat := reads_word what x.toNat_lt

theorem reads_word_eight (what : String) (x : UInt64) :
    Reads (word what 8) (Word.encode 8 x.toNat) x.toNat := reads_word what x.toNat_lt

/-- A single octet is a word of its own. -/
theorem encode_one (n : Nat) : Word.encode 1 n = [UInt8.ofNat n] := by
  simp [Word.encode, Word.count]

theorem reads_byte (what : String) (x : UInt8) : Reads (word what 1) [x] x.toNat := by
  have h := reads_word what (w := 1) (n := x.toNat) x.toNat_lt
  rwa [encode_one, UInt8.ofNat_toNat] at h

theorem reads_octet (x : UInt8) : Reads octet [x] x := by
  have h := (reads_byte "u8" x).map UInt8.ofNat
  rwa [UInt8.ofNat_toNat] at h

/-! ## Repetition -/

theorem repeatOnto_succ (item : Decoder α) (n : Nat) (reversed : List α) (b : Bytes) :
    repeatOnto item (n + 1) reversed b =
      match item b with
      | .ok (a, rest) => repeatOnto item n (a :: reversed) rest
      | .error m => .error m := rfl

theorem exists_of_repeatOnto_eq_ok {item : Decoder α} {n : Nat} {reversed items : List α}
    {b rest : Bytes} (h : repeatOnto item (n + 1) reversed b = .ok (items, rest)) :
    ∃ a middle, item b = .ok (a, middle) ∧
      repeatOnto item n (a :: reversed) middle = .ok (items, rest) := by
  rw [repeatOnto_succ] at h
  cases hb : item b with
  | error m =>
    rw [hb] at h
    cases h
  | ok p =>
    rw [hb] at h
    exact ⟨p.1, p.2, rfl, h⟩

theorem repeatOnto_eq {item : Decoder α} {write : α → Bytes} {items : List α}
    (h : ∀ a ∈ items, Reads item (write a) a) (reversed : List α) :
    Reads (repeatOnto item items.length reversed) (items.flatMap write)
      (reversed.reverse ++ items) := by
  induction items generalizing reversed with
  | nil => intro rest; simp [repeatOnto]
  | cons a items ih =>
    intro rest
    have ha := h a List.mem_cons_self (items.flatMap write ++ rest)
    rw [List.flatMap_cons, List.length_cons, repeatOnto_succ, List.append_assoc, ha]
    have hrest := ih (fun x hx => h x (List.mem_cons_of_mem a hx)) (a :: reversed) rest
    exact hrest.trans (by simp)

theorem reads_times {item : Decoder α} {write : α → Bytes} {items : List α}
    (h : ∀ a ∈ items, Reads item (write a) a) :
    Reads (times items.length item) (items.flatMap write) items :=
  repeatOnto_eq h []

theorem yields_repeatOnto {item : Decoder α} {P : α → Prop} (h : Yields item P) (n : Nat)
    (reversed : List α) (hrev : ∀ a ∈ reversed, P a) :
    Yields (repeatOnto item n reversed)
      fun items => (∀ a ∈ items, P a) ∧ items.length = reversed.length + n := by
  induction n generalizing reversed with
  | zero =>
    intro b items rest e
    obtain ⟨rfl, -⟩ : reversed.reverse = items ∧ b = rest := by simpa [repeatOnto] using e
    exact ⟨fun a ha => hrev a (List.mem_reverse.1 ha), by simp⟩
  | succ n ih =>
    intro b items rest e
    obtain ⟨a, middle, ha, hitems⟩ := exists_of_repeatOnto_eq_ok e
    have hall : ∀ x ∈ a :: reversed, P x :=
      List.forall_mem_cons.2 ⟨h b a middle ha, hrev⟩
    obtain ⟨hitems, hlength⟩ := ih (a :: reversed) hall middle items rest hitems
    refine ⟨hitems, ?_⟩
    rw [hlength, List.length_cons]
    omega

theorem yields_times {item : Decoder α} {P : α → Prop} (h : Yields item P) (n : Nat) :
    Yields (times n item) fun items => (∀ a ∈ items, P a) ∧ items.length = n :=
  (yields_repeatOnto h n [] (by simp)).mono fun items hitems => by simpa using hitems

/-! ## Delimited contents -/

theorem reads_limitCount (what : String) {count limit : Nat} (h : count ≤ limit) :
    Reads (limitCount what count limit) [] () := by
  unfold limitCount
  rw [if_neg (by omega)]
  exact reads_pure ()

theorem exists_of_within_eq_ok {inner : Decoder α} {content b rest : Bytes} {a : α}
    (h : within content inner b = .ok (a, rest)) :
    rest = b ∧ ∃ left, inner content = .ok (a, left) := by
  unfold within at h
  cases hc : inner content with
  | error m =>
    rw [hc] at h
    cases h
  | ok p =>
    rw [hc] at h
    cases h
    exact ⟨rfl, p.2, rfl⟩

theorem reads_within {inner : Decoder α} {content : Bytes} {a : α} (h : Reads inner content a) :
    Reads (within content inner) [] a := by
  intro rest
  have hc := h []
  rw [List.append_nil] at hc
  rw [List.nil_append, within, hc]

theorem yields_within {inner : Decoder α} {P : α → Prop} (content : Bytes) (h : Yields inner P) :
    Yields (within content inner) P := by
  intro b a rest e
  obtain ⟨-, left, ha⟩ := exists_of_within_eq_ok e
  exact h content a left ha

end Amqp.Value.Decoder
