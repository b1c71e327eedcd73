import Amqp.Proofs.Value.Attempts
import Amqp.Proofs.Value.Reading
import Mathlib.Tactic.SplitIfs

/-!
# Checks before panics

The checks of the reader of values suffice: no operation that can panic is ever carried out on too
few octets, and no announced count asks for memory beyond the octets there are, or beyond
`maxEmptyElements` for elements without octets.  The reader then gives what `Value.decode` gives.

`Attempt.Follows` compares an attempt with a reader on a given input.  There is one rule for each
way of putting them together, and each reader follows its parts.  A value nested inside another
begins further on, which is why a depth above the number of octets is enough.
-/

namespace Amqp

/-! ## Arrays inside values -/

/-- Whether a value is another one or stands somewhere inside it. -/
inductive Value.IsInside : Value → Value → Prop
  | refl (v : Value) : IsInside v v
  | list {v item : Value} {items : List Value} (hitem : item ∈ items) (h : IsInside v item) :
      IsInside v (.list items)
  | array {v item : Value} {items : List Value} (hitem : item ∈ items) (h : IsInside v item) :
      IsInside v (.array items)
  | key {v : Value} {e : Value × Value} {entries : List (Value × Value)} (he : e ∈ entries)
      (h : IsInside v e.1) : IsInside v (.map entries)
  | entry {v : Value} {e : Value × Value} {entries : List (Value × Value)} (he : e ∈ entries)
      (h : IsInside v e.2) : IsInside v (.map entries)
  | descriptor {v descriptor content : Value} (h : IsInside v descriptor) :
      IsInside v (.described descriptor content)
  | content {v descriptor content : Value} (h : IsInside v content) :
      IsInside v (.described descriptor content)

/-- Whether no array inside a value has more elements than a limit. -/
def Value.IsModest (limit : Nat) (v : Value) : Prop :=
  ∀ items, IsInside (.array items) v → items.length ≤ limit

namespace Value

/-! What is said of all arrays inside a value is said of those inside its parts. -/

section

variable {P : List Value → Prop} {items : List Value} {entries : List (Value × Value)}
  {descriptor content : Value}

theorem forall_inside_list_iff : (∀ xs, IsInside (.array xs) (.list items) → P xs) ↔
    ∀ v ∈ items, ∀ xs, IsInside (.array xs) v → P xs := by
  constructor
  · intro h v hv xs hxs
    exact h xs (.list hv hxs)
  · intro h xs hxs
    cases hxs with
    | list hitem hinside => exact h _ hitem xs hinside

theorem forall_inside_array_iff : (∀ xs, IsInside (.array xs) (.array items) → P xs) ↔
    P items ∧ ∀ v ∈ items, ∀ xs, IsInside (.array xs) v → P xs := by
  constructor
  · intro h
    exact ⟨h items (.refl _), fun v hv xs hxs => h xs (.array hv hxs)⟩
  · rintro ⟨hitems, h⟩ xs hxs
    cases hxs with
    | refl => exact hitems
    | array hitem hinside => exact h _ hitem xs hinside

theorem forall_inside_map_iff : (∀ xs, IsInside (.array xs) (.map entries) → P xs) ↔
    ∀ e ∈ entries, (∀ xs, IsInside (.array xs) e.1 → P xs) ∧
      ∀ xs, IsInside (.array xs) e.2 → P xs := by
  constructor
  · intro h e he
    exact ⟨fun xs hxs => h xs (.key he hxs), fun xs hxs => h xs (.entry he hxs)⟩
  · intro h xs hxs
    cases hxs with
    | key he hinside => exact (h _ he).1 xs hinside
    | entry he hinside => exact (h _ he).2 xs hinside

theorem forall_inside_described_iff :
    (∀ xs, IsInside (.array xs) (.described descriptor content) → P xs) ↔
      (∀ xs, IsInside (.array xs) descriptor → P xs) ∧
        ∀ xs, IsInside (.array xs) content → P xs := by
  constructor
  · intro h
    exact ⟨fun xs hxs => h xs (.descriptor hxs), fun xs hxs => h xs (.content hxs)⟩
  · intro h xs hxs
    cases hxs with
    | descriptor hinside => exact h.1 xs hinside
    | content hinside => exact h.2 xs hinside

end

namespace IsModest

variable {limit : Nat}

theorem list {items : List Value} (h : ∀ v ∈ items, v.IsModest limit) :
    (Value.list items).IsModest limit :=
  forall_inside_list_iff.2 h

theorem array {items : List Value} (hlength : items.length ≤ limit)
    (h : ∀ v ∈ items, v.IsModest limit) : (Value.array items).IsModest limit :=
  forall_inside_array_iff.2 ⟨hlength, h⟩

theorem map {entries : List (Value × Value)}
    (h : ∀ e ∈ entries, e.1.IsModest limit ∧ e.2.IsModest limit) :
    (Value.map entries).IsModest limit :=
  forall_inside_map_iff.2 h

theorem described {descriptor content : Value} (hdescriptor : descriptor.IsModest limit)
    (hcontent : content.IsModest limit) : (Value.described descriptor content).IsModest limit :=
  forall_inside_described_iff.2 ⟨hdescriptor, hcontent⟩

theorem content {descriptor content : Value}
    (h : (Value.described descriptor content).IsModest limit) : content.IsModest limit :=
  (forall_inside_described_iff.1 h).2

theorem item {items : List Value} (h : (Value.list items).IsModest limit) :
    ∀ v ∈ items, v.IsModest limit :=
  forall_inside_list_iff.1 h

end IsModest

end Value

namespace Attempt

variable {ε σ α β : Type} {limit : Nat} {b : Bytes}

open Value.Decoder (octets)

/-! ## Attempts and readers -/

/-- Whether an attempt gives what a reader gives, and fails only as the reader does, without asking
for memory beyond a limit.  `toFault` makes faults of what the reader says is wrong, and `P` holds
of what it gives and of what it leaves. -/
structure Follows (toFault : ε → Fault) (limit : Nat) (P : α → σ → Prop) (x : Attempt σ α)
    (r : StateT σ (Except ε) α) (s : σ) : Prop where
  result_eq : (x s).result = (r s).mapError fun e => .refused (toFault e)
  requests_le : ∀ n ∈ (x s).requests, n ≤ limit
  gives : ∀ a rest, r s = .ok (a, rest) → P a rest

section Rules

variable {toFault : ε → Fault} {s : σ}

theorem bind_of_error {x : Attempt σ α} {f : α → Attempt σ β} {m : Mishap}
    (h : (x s).result = .error m) :
    (x >>= f) s = { requests := (x s).requests, result := .error m } := by
  change Attempt.bind x f s = _
  rw [Attempt.bind]
  simp only [h]

theorem bind_of_ok {x : Attempt σ α} {f : α → Attempt σ β} {a : α} {s' : σ}
    (h : (x s).result = .ok (a, s')) :
    (x >>= f) s =
      { requests := (x s).requests ++ (f a s').requests, result := (f a s').result } := by
  change Attempt.bind x f s = _
  rw [Attempt.bind]
  simp only [h]

theorem reader_bind_apply (r : StateT σ (Except ε) α) (g : α → StateT σ (Except ε) β) (s : σ) :
    (r >>= g) s =
      match r s with
      | .ok (a, rest) => g a rest
      | .error e => .error e := by
  change StateT.bind r g s = _
  unfold StateT.bind
  cases r s <;> rfl

theorem follows_pure {P : α → σ → Prop} {a : α} (h : P a s) :
    Follows toFault limit P (pure a) (pure a) s where
  result_eq := rfl
  requests_le := nofun
  gives a' rest hok := by
    cases hok
    exact h

theorem follows_refuse (P : α → σ → Prop) (e : ε) :
    Follows toFault limit P (refuse (toFault e)) (fun _ => .error e) s where
  result_eq := rfl
  requests_le := nofun
  gives a rest hok := by cases hok

theorem Follows.mono {P Q : α → σ → Prop} {x : Attempt σ α} {r : StateT σ (Except ε) α}
    (h : Follows toFault limit P x r s) (hPQ : ∀ a rest, P a rest → Q a rest) :
    Follows toFault limit Q x r s :=
  ⟨h.result_eq, h.requests_le, fun a rest hok => hPQ a rest (h.gives a rest hok)⟩

theorem Follows.of_eq {P : α → σ → Prop} {x : Attempt σ α} {r : StateT σ (Except ε) α}
    {x' : Attempt σ α} {r' : StateT σ (Except ε) α} {s' : σ} (h : Follows toFault limit P x' r' s')
    (hx : x s = x' s') (hr : r s = r' s') : Follows toFault limit P x r s where
  result_eq := hx ▸ hr ▸ h.result_eq
  requests_le := hx ▸ h.requests_le
  gives := hr ▸ h.gives

theorem Follows.bind {P : α → σ → Prop} {Q : β → σ → Prop} {x : Attempt σ α}
    {r : StateT σ (Except ε) α} {f : α → Attempt σ β} {g : α → StateT σ (Except ε) β}
    (hx : Follows toFault limit P x r s)
    (hf : ∀ a rest, P a rest → Follows toFault limit Q (f a) (g a) rest) :
    Follows toFault limit Q (x >>= f) (r >>= g) s := by
  have hright := reader_bind_apply r g s
  have hresult := hx.result_eq
  cases hr : r s with
  | error e =>
    rw [hr] at hresult hright
    have hleft := bind_of_error (f := f) hresult
    refine ⟨?_, ?_, fun a rest hok => ?_⟩
    · rw [hleft, hright]
      rfl
    · rw [hleft]
      exact hx.requests_le
    · rw [hright] at hok
      cases hok
  | ok p =>
    obtain ⟨a, rest⟩ := p
    rw [hr] at hresult hright
    have hnext := hf a rest (hx.gives a rest hr)
    have hleft := bind_of_ok (f := f) hresult
    refine ⟨?_, ?_, fun c rest' hok => ?_⟩
    · rw [hleft, hright]
      exact hnext.result_eq
    · rw [hleft]
      intro n hn
      rcases List.mem_append.1 hn with hn | hn
      · exact hx.requests_le n hn
      · exact hnext.requests_le n hn
    · rw [hright] at hok
      exact hnext.gives c rest' hok

/-- Memory within the limit may be asked for at any time. -/
theorem follows_reserve_bind {P : α → σ → Prop} {n : Nat} {x : Unit → Attempt σ α}
    {r : StateT σ (Except ε) α} (hn : n ≤ limit) (h : Follows toFault limit P (x ()) r s) :
    Follows toFault limit P (reserve n >>= x) r s where
  result_eq := h.result_eq
  requests_le k hk := by
    rcases List.mem_cons.1 (show k ∈ n :: (x () s).requests from hk) with rfl | hk
    · exact hn
    · exact h.requests_le k hk
  gives := h.gives

/-- What there is to read may be looked at. -/
theorem follows_current_bind {P : α → σ → Prop} {x : σ → Attempt σ α}
    {r : σ → StateT σ (Except ε) α} (h : Follows toFault limit P (x s) (r s) s) :
    Follows toFault limit P (current >>= x) (get >>= r) s := h.of_eq rfl rfl

/-- Faults may be made of what is wrong at once. -/
theorem Follows.mapError {P : α → σ → Prop} {x : Attempt σ α} {r : StateT σ (Except ε) α}
    (h : Follows toFault limit P x r s) :
    Follows id limit P x (fun s => (r s).mapError toFault) s where
  result_eq := by
    rw [h.result_eq]
    cases r s <;> rfl
  requests_le := h.requests_le
  gives a rest hok := by
    cases hr : r s with
    | error e =>
      rw [hr] at hok
      cases hok
    | ok p =>
      rw [hr] at hok
      cases hok
      exact h.gives a rest hr

theorem Follows.ne_panicked {P : α → σ → Prop} {x : Attempt σ α} {r : StateT σ (Except ε) α}
    (h : Follows toFault limit P x r s) : (x s).result ≠ .error .panicked := by
  rw [h.result_eq]
  cases r s <;> nofun

end Rules

/-- `Follows` for readers of octets. -/
abbrev Serves (limit : Nat) (P : α → Bytes → Prop) (x : Attempt Bytes α) (r : Value.Decoder α)
    (b : Bytes) : Prop := Follows Fault.malformed limit P x r b

theorem serves_apart {P : α → Bytes → Prop} {content : Bytes} {x : Attempt Bytes α}
    {r : Value.Decoder α} (h : Serves limit P x r content) :
    Serves limit (fun a rest => (∃ rest', P a rest') ∧ rest = b) (apart content x)
      (Value.Decoder.within content r) b := by
  have hresult := h.result_eq
  have happart : (apart content x b).result = (x content).result.map fun (a, _) => (a, b) := rfl
  unfold Value.Decoder.within
  cases hr : r content with
  | error m =>
    rw [hr] at hresult
    exact ⟨by simp [happart, hresult, Except.mapError, Except.map], h.requests_le,
      fun a rest hok => by simp at hok⟩
  | ok p =>
    obtain ⟨a, rest'⟩ := p
    rw [hr] at hresult
    refine ⟨by simp [happart, hresult, Except.mapError, Except.map], h.requests_le, ?_⟩
    intro a' rest hok
    simp only [Except.ok.injEq, Prod.mk.injEq] at hok
    obtain ⟨rfl, rfl⟩ := hok
    exact ⟨⟨rest', h.gives _ rest' hr⟩, rfl⟩

/-! ## Octets and words -/

theorem octets_of_lt (what : String) {n : Nat} (h : b.length < n) :
    octets what n b = .error (.truncated what n b.length) := by
  rw [octets, Bytes.split?_eq_none_iff.2 h]

theorem octets_of_le (what : String) {n : Nat} (h : n ≤ b.length) :
    octets what n b = .ok (b.take n, b.drop n) := by
  have hsplit : Bytes.split? b n = some (b.take n, b.drop n) :=
    Bytes.split?_eq_some_iff.2 ⟨(List.take_append_drop n b).symm, List.length_take_of_le h⟩
  rw [octets, hsplit]

theorem ensure_bind (what : String) (n : Nat) (x : Unit → Attempt Bytes α) (b : Bytes) :
    (ensure what n >>= x) b =
      if b.length < n then (refuse (.malformed (.truncated what n b.length)) : Attempt Bytes α) b
      else x () b := by
  have hensure : ensure what n b =
      (if b.length < n then refuse (.malformed (.truncated what n b.length)) else pure () :
        Attempt Bytes Unit) b := rfl
  change Attempt.bind _ _ _ = _
  rw [Attempt.bind, hensure]
  by_cases h : b.length < n
  · simp only [if_pos h]
    rfl
  · simp only [if_neg h]
    rfl

/-- Behind a check for enough octets it is enough to look at inputs that have them. -/
theorem serves_ensure_bind {P : α → Bytes → Prop} {what : String} {n : Nat}
    {x : Unit → Attempt Bytes α} {r : Value.Decoder α}
    (hshort : b.length < n → r b = .error (.truncated what n b.length))
    (h : n ≤ b.length → Serves limit P (x ()) r b) : Serves limit P (ensure what n >>= x) r b := by
  have hensure := ensure_bind what n x b
  by_cases hn : b.length < n
  · rw [if_pos hn] at hensure
    refine ⟨?_, ?_, ?_⟩
    · rw [hensure, hshort hn]
      rfl
    · rw [hensure]
      nofun
    · intro a rest hok
      rw [hshort hn] at hok
      cases hok
  · rw [if_neg hn] at hensure
    have hx := h (Nat.not_lt.1 hn)
    exact ⟨hensure ▸ hx.result_eq, hensure ▸ hx.requests_le, hx.gives⟩

theorem serves_slice (what : String) (n : Nat) :
    Serves limit (fun a rest => a.length = n ∧ rest.length + n = b.length) (slice what n)
      (octets what n) b := by
  refine serves_ensure_bind (octets_of_lt what) fun h => ?_
  have hsplit : splitTo n b = { result := .ok (b.take n, b.drop n) } := by
    unfold splitTo
    rw [if_neg (by omega)]
  refine ⟨?_, ?_, ?_⟩
  · rw [hsplit, octets_of_le what h]
    rfl
  · rw [hsplit]
    nofun
  · intro a rest hok
    rw [octets_of_le what h] at hok
    cases hok
    rw [List.length_take, List.length_drop]
    omega

theorem word_of_le (what : String) {n : Nat} (h : n ≤ b.length) :
    Value.Decoder.word what n b = .ok (Word.decode (b.take n), b.drop n) := by
  unfold Value.Decoder.word
  rw [Value.Decoder.bind_apply, octets_of_le what h]
  rfl

theorem serves_word (what : String) (n : Nat) :
    Serves limit (fun _ rest => rest.length + n = b.length) (word what n)
      (Value.Decoder.word what n) b := by
  refine serves_ensure_bind (fun h => ?_) fun h => ?_
  · unfold Value.Decoder.word
    rw [Value.Decoder.bind_apply, octets_of_lt what h]
  have hget : getWord n b = { result := .ok (Word.decode (b.take n), b.drop n) } := by
    unfold getWord
    rw [if_neg (by omega)]
  refine ⟨?_, ?_, ?_⟩
  · rw [hget, word_of_le what h]
    rfl
  · rw [hget]
    nofun
  · intro a rest hok
    rw [word_of_le what h] at hok
    cases hok
    rw [List.length_drop]
    omega

theorem serves_octet :
    Serves limit (fun _ rest => rest.length + 1 = b.length) octet Value.Decoder.octet b :=
  (serves_word "u8" 1).bind fun _ _ h => follows_pure h

theorem serves_length (width : Width) :
    Serves limit (fun _ rest => rest.length < b.length) (length width)
      (Value.Decoder.length width) b := by
  cases width with
  | narrow => exact (serves_word "u8" 1).mono fun _ _ h => by omega
  | wide => exact (serves_word "u32" 4).mono fun _ _ h => by omega

/-! ## Contents behind a length -/

theorem serves_variableContent (what : String) (width : Width) :
    Serves limit (fun _ rest => rest.length ≤ b.length) (variableContent what width)
      (Value.variableContent what width) b :=
  (serves_length width).bind fun n _ hlength => (serves_slice what n).mono fun _ _ h => by omega

theorem serves_textContent (what : String) (width : Width) :
    Serves limit (fun _ rest => rest.length ≤ b.length) (textContent what width)
      (Value.textContent what width) b := by
  refine (serves_variableContent what width).bind fun content rest h => ?_
  cases Utf8.decode? content with
  | some s => exact follows_pure h
  | none => exact follows_refuse _ _

/-- The count of a compound value stands in its content if the size has room for it. -/
theorem countAndRest_of_le {width : Width} (h : width.octets ≤ b.length) :
    countAndRest width b =
      { result := .ok ((Word.decode (b.take width.octets), b.drop width.octets),
          b.drop width.octets) } := by
  have hget : getWord width.octets b =
      { result := .ok (Word.decode (b.take width.octets), b.drop width.octets) } := by
    unfold getWord
    rw [if_neg (by omega)]
  change Attempt.bind _ _ _ = _
  rw [Attempt.bind, hget]
  rfl

theorem serves_compoundContent (what : String) (width : Width) :
    Serves limit (fun c rest => c.2.length < b.length ∧ rest.length ≤ b.length)
      (compoundContent what width) (Value.compoundContent what width) b := by
  refine (serves_length width).bind fun size rest hsize => ?_
  split_ifs with hcount
  · exact follows_refuse _ _
  · refine (serves_slice what size).bind fun content rest' ⟨hcontent, hrest⟩ => ?_
    have happart : apart content (countAndRest width) rest' =
        { result := .ok ((Word.decode (content.take width.octets), content.drop width.octets),
            rest') } := by
      unfold apart
      rw [countAndRest_of_le (by omega)]
      rfl
    refine ⟨?_, ?_, ?_⟩
    · rw [happart]
      rfl
    · rw [happart]
      nofun
    · intro c rest'' hok
      cases hok
      change (content.drop width.octets).length < b.length ∧ rest'.length ≤ b.length
      rw [List.length_drop]
      omega

/-! ## Repetition -/

theorem serves_checkCount (what : String) (count bound : Nat) :
    Serves limit (fun _ rest => count ≤ bound ∧ rest = b) (checkCount what count bound)
      (Value.limitCount what count bound) b := by
  unfold checkCount Value.limitCount
  split_ifs with h
  · exact follows_refuse _ _
  · exact follows_pure ⟨Nat.not_lt.1 h, rfl⟩

theorem repeatOnto_eq_bind (item : Value.Decoder α) (n : Nat) (reversed : List α) :
    Value.Decoder.repeatOnto item (n + 1) reversed =
      item >>= fun a => Value.Decoder.repeatOnto item n (a :: reversed) := by
  funext b
  rw [Value.Decoder.bind_apply, Value.Decoder.repeatOnto_succ]

section Repetition

variable {Q : α → Prop} {item : Attempt Bytes α} {r : Value.Decoder α} {most : Nat}

theorem serves_repeatOnto
    (hitem : ∀ b : Bytes, b.length ≤ most →
      Serves limit (fun a rest => Q a ∧ rest.length ≤ b.length) item r b)
    (n : Nat) (reversed : List α) (hreversed : ∀ a ∈ reversed, Q a) (hb : b.length ≤ most) :
    Serves limit (fun items _ => (∀ a ∈ items, Q a) ∧ items.length = reversed.length + n)
      (repeatOnto item n reversed) (Value.Decoder.repeatOnto r n reversed) b := by
  induction n generalizing reversed b with
  | zero =>
    refine follows_pure ⟨fun a ha => hreversed a (List.mem_reverse.1 ha), ?_⟩
    rw [List.length_reverse, Nat.add_zero]
  | succ n ih =>
    rw [repeatOnto_eq_bind]
    refine (hitem b hb).bind fun a rest ⟨ha, hrest⟩ => ?_
    have hall : ∀ x ∈ a :: reversed, Q x := List.forall_mem_cons.2 ⟨ha, hreversed⟩
    have hlater := ih (a :: reversed) hall (Nat.le_trans hrest hb)
    refine hlater.mono fun items _ ⟨hitems, hlength⟩ => ⟨hitems, ?_⟩
    rw [hlength, List.length_cons]
    omega

theorem serves_times
    (hitem : ∀ b : Bytes, b.length ≤ most →
      Serves limit (fun a rest => Q a ∧ rest.length ≤ b.length) item r b)
    {n : Nat} (hn : n ≤ limit) (hb : b.length ≤ most) :
    Serves limit (fun items _ => (∀ a ∈ items, Q a) ∧ items.length = n) (times n item)
      (Value.Decoder.times n r) b := by
  refine follows_reserve_bind hn ?_
  refine (serves_repeatOnto hitem n [] nofun hb).mono fun items _ ⟨hitems, hlength⟩ => ?_
  exact ⟨hitems, by simpa using hlength⟩

end Repetition

/-! ## Values inside values -/

/-- What a reader of values guarantees: modest values, and nothing added to the octets. -/
def Fits (limit : Nat) (b : Bytes) (v : Value) (rest : Bytes) : Prop :=
  v.IsModest limit ∧ rest.length ≤ b.length

section Contents

variable {value : Attempt Bytes Value} {element : UInt8 → Attempt Bytes Value}
  {readValue : Value.Decoder Value} {readElement : UInt8 → Value.Decoder Value}

/-- A value made of scalars is modest. -/
theorem serves_scalar {x : Attempt Bytes α} {r : Value.Decoder α} {f : α → Value}
    (h : Serves limit (fun _ rest => rest.length ≤ b.length) x r b)
    (hf : ∀ a, (f a).IsModest limit) :
    Serves limit (Fits limit b) (x >>= fun a => pure (f a)) (r >>= fun a => pure (f a)) b :=
  h.bind fun a _ hrest => follows_pure ⟨hf a, hrest⟩

theorem serves_entry (h : ∀ b' : Bytes, b'.length ≤ b.length →
    Serves limit (Fits limit b') value readValue b') :
    Serves limit
      (fun e rest => (e.1.IsModest limit ∧ e.2.IsModest limit) ∧ rest.length ≤ b.length)
      (entry value) (Value.entry readValue) b := by
  refine (h b (Nat.le_refl _)).bind fun key rest ⟨hkey, hrest⟩ => ?_
  refine (h rest hrest).bind fun item rest' ⟨hitem, hrest'⟩ => follows_pure ⟨⟨hkey, hitem⟩, ?_⟩
  exact Nat.le_trans hrest' hrest

theorem serves_elementHead (h : ∀ b' : Bytes, b'.length ≤ b.length →
    Serves limit (Fits limit b') value readValue b') :
    Serves limit
      (fun head rest => (∀ d, head.1 = some d → d.IsModest limit) ∧ rest.length ≤ b.length)
      (elementHead value) (Value.elementHead readValue) b := by
  refine serves_octet.bind fun code rest hcode => ?_
  split_ifs
  · refine (h rest (by omega)).bind fun d rest' ⟨hd, hrest'⟩ => ?_
    refine serves_octet.bind fun code' rest'' hcode' => follows_pure ⟨?_, by omega⟩
    rintro d' ⟨⟩
    exact hd
  · exact follows_pure ⟨nofun, by omega⟩

theorem serves_charContent :
    Serves limit (Fits limit b) charContent Value.charContent b := by
  refine (serves_word "u32" 4).bind fun code rest hrest => ?_
  by_cases h : code.isValidChar
  · rw [dif_pos h, dif_pos h]
    exact follows_pure ⟨nofun, by omega⟩
  · rw [dif_neg h, dif_neg h]
    exact follows_refuse _ _

/-- No more elements are announced than there are octets left, or than may do without octets. -/
theorem elementLimit_le (hempty : Value.maxEmptyElements ≤ limit) (code : UInt8) {content : Bytes}
    (h : content.length ≤ limit) : Value.elementLimit code content ≤ limit := by
  unfold Value.elementLimit
  split_ifs
  · exact hempty
  · exact h

section Nested

variable (hempty : Value.maxEmptyElements ≤ limit) (hlimit : b.length ≤ limit)
  (hvalue : ∀ b' : Bytes, b'.length < b.length → Serves limit (Fits limit b') value readValue b')
  (helement : ∀ (b' : Bytes) (code : UInt8), b'.length < b.length →
    Serves limit (Fits limit b') (element code) (readElement code) b')

include hlimit hvalue

theorem serves_listContent (width : Width) :
    Serves limit (Fits limit b) (listContent value width) (Value.listContent readValue width)
      b := by
  refine (serves_compoundContent "list" width).bind fun ⟨count, content⟩ rest ⟨hless, hrest⟩ => ?_
  refine (serves_checkCount "list" count content.length).bind fun _ rest' ⟨hcount, hsame⟩ => ?_
  have hless : content.length < b.length := hless
  have hitems := serves_times (n := count)
    (fun b' hb' => hvalue b' (Nat.lt_of_le_of_lt hb' hless)) (by omega) (Nat.le_refl _)
  refine (serves_apart hitems).bind fun items rest'' ⟨⟨_, hall, _⟩, hsame'⟩ => follows_pure ?_
  exact ⟨.list hall, hsame' ▸ hsame ▸ hrest⟩

theorem serves_mapContent (width : Width) :
    Serves limit (Fits limit b) (mapContent value width) (Value.mapContent readValue width) b := by
  refine (serves_compoundContent "map" width).bind fun ⟨count, content⟩ rest ⟨hless, hrest⟩ => ?_
  refine (serves_checkCount "map" count content.length).bind fun _ rest' ⟨hcount, hsame⟩ => ?_
  have hless : content.length < b.length := hless
  split_ifs
  · exact follows_refuse _ _
  · have hentries := serves_times (n := count / 2)
      (fun b' hb' => serves_entry fun b'' hb'' => hvalue b'' (by omega)) (by omega)
      (Nat.le_refl content.length)
    refine (serves_apart hentries).bind fun entries rest'' ⟨⟨_, hall, _⟩, hsame'⟩ => follows_pure ?_
    exact ⟨.map hall, hsame' ▸ hsame ▸ hrest⟩

include hempty helement

theorem serves_elements {content : Bytes} (hless : content.length < b.length) (count : Nat) :
    Serves limit (fun items _ => items.length ≤ limit ∧ ∀ v ∈ items, v.IsModest limit)
      (elements value element count) (Value.elements readValue readElement count) content := by
  refine (serves_elementHead fun b' hb' => hvalue b' (by omega)).bind
    fun ⟨descriptor, code⟩ rest ⟨hdescriptor, hrest⟩ => ?_
  have hall : Value.elementLimit code rest ≤ limit := elementLimit_le hempty code (by omega)
  refine follows_current_bind ?_
  refine (serves_checkCount "array" count _).bind ?_
  rintro _ rest' ⟨hcount, rfl⟩
  have hitems := serves_times (b := rest') (n := count)
    (fun b' hb' => helement b' code (by omega)) (Nat.le_trans hcount hall)
    (Nat.le_refl rest'.length)
  refine hitems.bind fun items _ ⟨hmodest, hlength⟩ => ?_
  cases descriptor with
  | none => exact follows_pure ⟨by omega, hmodest⟩
  | some d =>
    refine follows_pure ⟨by rw [List.length_map]; omega, fun v hv => ?_⟩
    obtain ⟨item, hitem, rfl⟩ := List.mem_map.1 hv
    exact .described (hdescriptor d rfl) (hmodest item hitem)

theorem serves_arrayContent (width : Width) :
    Serves limit (Fits limit b) (arrayContent value element width)
      (Value.arrayContentOf readValue readElement width) b := by
  refine (serves_compoundContent "array" width).bind
    fun ⟨count, content⟩ rest ⟨hless, hrest⟩ => ?_
  have hitems := serves_elements hempty hlimit hvalue helement hless count
  refine (serves_apart hitems).bind fun items rest' ⟨⟨_, hlength, hall⟩, hsame⟩ => follows_pure ?_
  exact ⟨.array hlength hall, hsame ▸ hrest⟩

theorem serves_contentOf (c : Constructor) :
    Serves limit (Fits limit b) (contentOf value element c)
      (Value.contentOf readValue readElement c) b := by
  have hpure : ∀ v : Value, v.IsModest limit → Serves limit (Fits limit b) (pure v) (pure v) b :=
    fun v hv => follows_pure ⟨hv, Nat.le_refl _⟩
  have hoctet : Serves limit (fun _ rest => rest.length ≤ b.length) octet Value.Decoder.octet b :=
    serves_octet.mono fun _ rest h => by omega
  have hword : ∀ what n, Serves limit (fun _ rest => rest.length ≤ b.length) (word what n)
      (Value.Decoder.word what n) b := fun what n =>
    (serves_word what n).mono fun _ rest h => by omega
  cases c with
  | null => exact hpure _ nofun
  | boolTrue => exact hpure _ nofun
  | boolFalse => exact hpure _ nofun
  | uintZero => exact hpure _ nofun
  | ulongZero => exact hpure _ nofun
  | emptyList => exact hpure _ (.list nofun)
  | boolean => exact serves_scalar hoctet fun _ => nofun
  | ubyte => exact serves_scalar hoctet fun _ => nofun
  | smallUint => exact serves_scalar hoctet fun _ => nofun
  | smallUlong => exact serves_scalar hoctet fun _ => nofun
  | char => exact serves_charContent
  | uuid =>
    exact serves_scalar ((serves_slice "uuid" 16).mono fun _ rest h => by omega) fun _ => nofun
  | binary width =>
    cases width <;> exact serves_scalar (serves_variableContent _ _) fun _ => nofun
  | string width => cases width <;> exact serves_scalar (serves_textContent _ _) fun _ => nofun
  | symbol width => cases width <;> exact serves_scalar (serves_textContent _ _) fun _ => nofun
  | list width => exact serves_listContent hlimit hvalue width
  | map width => exact serves_mapContent hlimit hvalue width
  | array width => exact serves_arrayContent hempty hlimit hvalue helement width
  | _ => exact serves_scalar (hword _ _) fun _ => nofun

theorem serves_contentWith (code : UInt8) :
    Serves limit (Fits limit b) (contentWith value element code)
      (Value.contentWith readValue readElement code) b := by
  unfold contentWith Value.contentWith
  cases Constructor.ofCode? code with
  | none => exact follows_refuse _ _
  | some c => exact serves_contentOf hempty hlimit hvalue helement c

end Nested

end Contents

/-! ## Every level of the reader -/

/-- Any depth above the number of octets is enough: the reader is refused or gives a value, and
never runs out of depth. -/
theorem serves_valueAt_and_contentAt (hempty : Value.maxEmptyElements ≤ limit)
    (depth enough : Nat) (hdepth : b.length < depth) (henough : b.length ≤ enough)
    (hlimit : b.length ≤ limit) :
    Serves limit (Fits limit b) (valueAt depth) (Value.valueAt enough) b ∧
      ∀ code, Serves limit (Fits limit b) (contentAt depth code) (Value.contentAt enough code)
        b := by
  induction depth generalizing enough b with
  | zero => omega
  | succ depth ih =>
    -- What is nested stands at least one octet further on.
    have hvalue : ∀ b' : Bytes, b'.length < b.length →
        Serves limit (Fits limit b') (valueAt depth) (Value.valueAt (enough - 1)) b' :=
      fun b' hb' => (ih (enough - 1) (by omega) (by omega) (by omega)).1
    have helement : ∀ (b' : Bytes) (code : UInt8), b'.length < b.length →
        Serves limit (Fits limit b') (contentAt depth code) (Value.contentAt (enough - 1) code)
          b' :=
      fun b' code hb' => (ih (enough - 1) (by omega) (by omega) (by omega)).2 code
    cases enough with
    | zero =>
      obtain rfl : b = [] := List.eq_nil_of_length_eq_zero (Nat.le_zero.1 henough)
      refine ⟨?_, fun code => ?_⟩
      · rw [valueAt, Value.valueAt]
        exact ⟨rfl, nofun, nofun⟩
      · rw [contentAt, Value.contentAt]
        exact serves_contentWith hempty hlimit nofun nofun code
    | succ enough =>
      refine ⟨?_, fun code => ?_⟩
      · rw [valueAt, Value.valueAt]
        refine serves_octet.bind fun code rest hrest => ?_
        split_ifs
        · refine (hvalue rest (by omega)).bind fun d rest' ⟨hd, hrest'⟩ => ?_
          refine (hvalue rest' (by omega)).bind fun v rest'' ⟨hv, hrest''⟩ => ?_
          exact follows_pure ⟨.described hd hv, by omega⟩
        · exact (helement rest code (by omega)).mono fun v rest' ⟨hv, hrest'⟩ => ⟨hv, by omega⟩
      · rw [contentAt, Value.contentAt]
        exact serves_contentWith hempty hlimit hvalue helement code

/-- Reading a value gives what `Value.decode` gives, at any depth above the number of octets. -/
theorem serves_decode {depth : Nat} (hdepth : b.length < depth) :
    Serves (max Value.maxEmptyElements b.length)
      (Fits (max Value.maxEmptyElements b.length) b) (valueAt depth) Value.decode b := by
  have h := serves_valueAt_and_contentAt (Nat.le_max_left Value.maxEmptyElements b.length) depth
    b.length hdepth (Nat.le_refl _) (Nat.le_max_right _ _)
  exact h.1.of_eq rfl rfl

end Attempt

end Amqp
