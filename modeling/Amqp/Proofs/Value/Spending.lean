import Amqp.Proofs.Value.Contents

/-!
# The octets that values take

`Spends r P` says that `P` holds of whatever the reader `r` gives together with the number of octets
that it takes for it.  There is one rule for each way of putting readers together.

`Content` lists what can stand behind a constructor, whatever octets are read: a value without other
values, or a list, a map or an array whose parts share out the octets between its borders.  What a
count of octets says about every value that is decoded is then proved for each of these alone
(`spends_of_decode`).
-/

namespace Amqp.Value

namespace Decoder

variable {α β : Type}

/-- Whatever the reader gives satisfies `P` with the number of octets that it takes. -/
def Spends (r : Decoder α) (P : α → Nat → Prop) : Prop :=
  ∀ b a rest, r b = .ok (a, rest) → ∃ n, b.length = n + rest.length ∧ P a n

/-- Items share out a number of octets so that `P` holds of each item and its own octets. -/
inductive Apiece (P : α → Nat → Prop) : List α → Nat → Prop
  | nil : Apiece P [] 0
  | cons {a : α} {items : List α} {m n : Nat} (ha : P a m) (hitems : Apiece P items n) :
      Apiece P (a :: items) (m + n)

/-! ## Rules -/

theorem spends_pure {P : α → Nat → Prop} {a : α} (h : P a 0) : Spends (pure a) P := by
  intro b a' rest hok
  obtain ⟨rfl, rfl⟩ := Prod.mk.inj (Except.ok.inj hok)
  exact ⟨0, (Nat.zero_add _).symm, h⟩

theorem spends_fail {P : α → Nat → Prop} (m : Malformation) : Spends (fail m) P := by
  intro b a rest hok
  cases hok

theorem Spends.mono {r : Decoder α} {P Q : α → Nat → Prop} (h : Spends r P)
    (hPQ : ∀ a n, P a n → Q a n) : Spends r Q := by
  intro b a rest hok
  obtain ⟨n, hlength, ha⟩ := h b a rest hok
  exact ⟨n, hlength, hPQ a n ha⟩

theorem Spends.bind {r : Decoder α} {f : α → Decoder β} {P : α → Nat → Prop}
    {Q : β → Nat → Prop} (hr : Spends r P)
    (hf : ∀ a m, P a m → Spends (f a) fun x n => Q x (m + n)) : Spends (r >>= f) Q := by
  intro b x rest hok
  obtain ⟨a, middle, hfirst, hsecond⟩ := exists_of_bind_eq_ok hok
  obtain ⟨m, hm, ha⟩ := hr b a middle hfirst
  obtain ⟨n, hn, hx⟩ := hf a m ha middle x rest hsecond
  exact ⟨m + n, by omega, hx⟩

theorem Spends.map {r : Decoder α} {f : α → β} {P : α → Nat → Prop} {Q : β → Nat → Prop}
    (hr : Spends r P) (h : ∀ a n, P a n → Q (f a) n) :
    Spends (r >>= fun a => pure (f a)) Q :=
  hr.bind fun a n ha => spends_pure (h a n ha)

/-- A reader may look at all octets that are left. -/
theorem spends_get_bind {f : Bytes → Decoder β} {Q : β → Nat → Prop}
    (h : ∀ b, Spends (f b) Q) : Spends (get >>= f) Q := by
  intro b x rest hok
  rw [bind_apply] at hok
  exact h b b x rest hok

theorem spends_octets (what : String) (n : Nat) :
    Spends (octets what n) fun b m => b.length = n ∧ m = n := by
  intro b front rest hok
  obtain ⟨rfl, hlength⟩ := eq_append_of_octets hok
  exact ⟨n, by rw [List.length_append, hlength], hlength, rfl⟩

theorem spends_repeatOnto {item : Decoder α} {P : α → Nat → Prop} (h : Spends item P) (n : Nat)
    (reversed : List α) :
    Spends (repeatOnto item n reversed) fun items m =>
      ∃ new, items = reversed.reverse ++ new ∧ new.length = n ∧ Apiece P new m := by
  induction n generalizing reversed with
  | zero => exact spends_pure ⟨[], by simp, rfl, .nil⟩
  | succ n ih =>
    intro b items rest hok
    obtain ⟨a, middle, hfirst, hothers⟩ := exists_of_repeatOnto_eq_ok hok
    obtain ⟨k, hk, ha⟩ := h b a middle hfirst
    obtain ⟨l, hl, new, rfl, hnew, hall⟩ := ih (a :: reversed) middle items rest hothers
    exact ⟨k + l, by omega, a :: new, by simp, by rw [List.length_cons, hnew], hall.cons ha⟩

theorem Spends.times {item : Decoder α} {P : α → Nat → Prop} (h : Spends item P) (n : Nat) :
    Spends (times n item) fun items m => items.length = n ∧ Apiece P items m := by
  refine (spends_repeatOnto h n []).mono fun items m hitems => ?_
  obtain ⟨new, rfl, hnew, hall⟩ := hitems
  exact ⟨hnew, hall⟩

/-- Delimited content need not be used up, and is paid for by whoever delimits it. -/
theorem Spends.within {inner : Decoder α} {P : α → Nat → Prop} (h : Spends inner P)
    (content : Bytes) :
    Spends (within content inner) fun a m => m = 0 ∧ ∃ n ≤ content.length, P a n := by
  intro b a rest hok
  obtain ⟨rfl, left, hinner⟩ := exists_of_within_eq_ok hok
  obtain ⟨n, hn, ha⟩ := h content a left hinner
  exact ⟨0, (Nat.zero_add _).symm, rfl, n, by omega, ha⟩

/-! ## Words and lengths -/

theorem spends_word (what : String) (n : Nat) :
    Spends (word what n) fun k m => m = n ∧ k < Word.count n := by
  refine (spends_octets what n).map fun b m h => ?_
  obtain ⟨hb, rfl⟩ := h
  exact ⟨rfl, hb ▸ Word.decode_lt b⟩

theorem spends_octet : Spends octet fun _ m => m = 1 :=
  (spends_word "u8" 1).map fun _ _ h => h.1

theorem spends_length (width : Width) :
    Spends (length width) fun n m => m = width.octets ∧ n < Word.count width.octets := by
  cases width
  · exact spends_word "u8" 1
  · exact spends_word "u32" 4

end Decoder

open Decoder

/-! ## Variable and compound contents -/

theorem spends_limitCount (what : String) (count limit : Nat) :
    Spends (limitCount what count limit) fun _ m => m = 0 ∧ count ≤ limit := by
  unfold limitCount
  split_ifs with h
  · exact spends_fail _
  · exact spends_pure ⟨rfl, by omega⟩

theorem spends_variableContent (what : String) (width : Width) :
    Spends (variableContent what width) fun content m =>
      m = width.octets + content.length ∧ content.length < Word.count width.octets := by
  refine (spends_length width).bind fun n m h => ?_
  obtain ⟨rfl, hn⟩ := h
  refine (spends_octets what n).mono fun content k hcontent => ?_
  obtain ⟨rfl, rfl⟩ := hcontent
  exact ⟨rfl, hn⟩

theorem spends_textContent (what : String) (width : Width) :
    Spends (textContent what width) fun s m =>
      m = width.octets + (Utf8.encode s).length ∧
        (Utf8.encode s).length < Word.count width.octets := by
  refine (spends_variableContent what width).bind fun content m h => ?_
  cases hs : Utf8.decode? content with
  | some s => exact spends_pure (by rwa [Utf8.encode_of_decode? hs])
  | none => exact spends_fail _

theorem spends_compoundContent (what : String) (width : Width) :
    Spends (compoundContent what width) fun r m =>
      m = (compoundBody width r.1 r.2).length ∧ CompoundFits width r.1 r.2 := by
  refine (spends_length width).bind fun size m h => ?_
  obtain ⟨rfl, hsize⟩ := h
  split_ifs with hbelow
  · exact spends_fail _
  · refine (spends_octets what size).map fun content n hcontent => ?_
    obtain ⟨rfl, rfl⟩ := hcontent
    have hdrop : (content.drop width.octets).length + width.octets = content.length := by
      rw [List.length_drop]
      omega
    have hcount := Word.decode_lt (content.take width.octets)
    rw [List.length_take_of_le (by omega)] at hcount
    refine ⟨?_, ?_, hcount⟩
    · rw [length_compoundBody]
      dsimp only
      omega
    · rwa [hdrop]

/-! ## What stands behind a constructor -/

section Contents

/-- What the elements of an array can be, and the octets that they take together: they share a
constructor and possibly a descriptor, and are only so many when they have no octets. -/
inductive Elements (P : Value → Nat → Prop) (E : Constructor → Value → Nat → Prop) :
    List Value → Nat → Prop
  | bare (c : Constructor) {items : List Value} {n : Nat} (hitems : Apiece (E c) items n)
      (hlimit : c.isBodiless = true → items.length ≤ maxEmptyElements) : Elements P E items (n + 1)
  | described (c : Constructor) {d : Value} {contents : List Value} {m n : Nat} (hd : P d m)
      (hcontents : Apiece (E c) contents n)
      (hlimit : c.isBodiless = true → contents.length ≤ maxEmptyElements) :
      Elements P E (contents.map (described d)) (m + n + 2)

/-- What can stand behind a constructor, and the octets that it takes there.  `P` holds of values
and their octets, and `E` of what stands behind the constructor of array elements. -/
inductive Content (P : Value → Nat → Prop) (E : Constructor → Value → Nat → Prop)
    (c : Constructor) : Value → Nat → Prop
  | scalar {v : Value} {m : Nat} (hscalar : v.kind.isScalar = true)
      (hbody : m = 0 → c.isBodiless = true) (hlength : v.encode.length ≤ m + 1) : Content P E c v m
  | emptyList (hbody : c.isBodiless = true) : Content P E c (list []) 0
  | list {width : Width} {items : List Value} {content : Bytes} {n : Nat}
      (hfits : CompoundFits width items.length content) (hitems : Apiece P items n)
      (hn : n ≤ content.length) :
      Content P E c (list items) (compoundBody width items.length content).length
  | map {width : Width} {entries : Entries} {content : Bytes} {n : Nat}
      (hfits : CompoundFits width (entries.length * 2) content)
      (hentries : Apiece (fun e n => ∃ k l, n = k + l ∧ P e.1 k ∧ P e.2 l) entries n)
      (hn : n ≤ content.length) :
      Content P E c (map entries) (compoundBody width (entries.length * 2) content).length
  | array {width : Width} {items : List Value} {content : Bytes} {n : Nat}
      (hitems : Elements P E items n) (hn : n ≤ content.length) :
      Content P E c (array items) (compoundBody width items.length content).length

variable {P : Value → Nat → Prop} {E : Constructor → Value → Nat → Prop} {value : Decoder Value}
  {element : UInt8 → Decoder Value}

theorem spends_listContent (hvalue : Spends value P) (c : Constructor) (width : Width) :
    Spends (listContent value width) (Content P E c) := by
  refine (spends_compoundContent "list" width).bind fun ⟨count, content⟩ m h => ?_
  obtain ⟨rfl, hfits⟩ := h
  refine (spends_limitCount "list" count content.length).bind fun _ k hk => ?_
  obtain ⟨rfl, -⟩ := hk
  refine ((hvalue.times count).within content).map fun items l hitems => ?_
  obtain ⟨rfl, n, hn, rfl, hall⟩ := hitems
  exact .list hfits hall hn

theorem spends_entry (hvalue : Spends value P) :
    Spends (entry value) fun e n => ∃ k l, n = k + l ∧ P e.1 k ∧ P e.2 l :=
  hvalue.bind fun _ k hkey => hvalue.map fun _ l hitem => ⟨k, l, rfl, hkey, hitem⟩

theorem spends_mapContent (hvalue : Spends value P) (c : Constructor) (width : Width) :
    Spends (mapContent value width) (Content P E c) := by
  refine (spends_compoundContent "map" width).bind fun ⟨count, content⟩ m h => ?_
  obtain ⟨rfl, hfits⟩ := h
  refine (spends_limitCount "map" count content.length).bind fun _ k hk => ?_
  obtain ⟨rfl, -⟩ := hk
  split_ifs with hodd
  · exact spends_fail _
  · refine (((spends_entry hvalue).times (count / 2)).within content).map fun entries l hall => ?_
    obtain ⟨rfl, n, hn, hlength, hall⟩ := hall
    have hcount : entries.length * 2 = count := by omega
    dsimp only at hfits ⊢
    rw [← hcount] at hfits ⊢
    exact .map hfits hall hn

theorem spends_elementHead (hvalue : Spends value P) :
    Spends (elementHead value) fun head m =>
      (head.1 = none ∧ m = 1) ∨ ∃ d n, head.1 = some d ∧ P d n ∧ m = n + 2 := by
  refine spends_octet.bind fun code m hm => ?_
  obtain rfl := hm
  split_ifs
  · refine hvalue.bind fun d n hd => spends_octet.map fun _ k hk => Or.inr ⟨d, n, rfl, hd, ?_⟩
    omega
  · exact spends_pure (Or.inl ⟨rfl, rfl⟩)

/-- Elements share a constructor; if there are none then any will do. -/
theorem spends_contents (helement : ∀ code, Spends (element code) fun v m =>
      ∃ c, Constructor.ofCode? code = some c ∧ E c v m) (code : UInt8) (rest : Bytes)
    {count : Nat} (hcount : count ≤ elementLimit code rest) :
    Spends (times count (element code)) fun contents n => ∃ c, Apiece (E c) contents n ∧
      (c.isBodiless = true → contents.length ≤ maxEmptyElements) ∧ contents.length = count := by
  refine ((helement code).times count).mono fun contents n hcontents => ?_
  obtain ⟨rfl, hall⟩ := hcontents
  cases hcode : Constructor.ofCode? code with
  | none =>
    cases hall with
    | nil => exact ⟨.null, .nil, fun _ => Nat.zero_le _, rfl⟩
    | cons ha _ => obtain ⟨c, hc, -⟩ := ha; rw [hcode] at hc; cases hc
  | some c =>
    refine ⟨c, ?_, fun hbody => ?_, rfl⟩
    · clear hcount
      induction hall with
      | nil => exact .nil
      | cons ha _ ih =>
        obtain ⟨c', hc', ha⟩ := ha
        obtain rfl := Option.some.inj (hcode.symm.trans hc')
        exact ih.cons ha
    · rwa [elementLimit, hcode, if_pos (by simpa using hbody)] at hcount

theorem spends_elements (hvalue : Spends value P)
    (helement : ∀ code, Spends (element code) fun v m =>
      ∃ c, Constructor.ofCode? code = some c ∧ E c v m) (count : Nat) :
    Spends (elements value element count) fun items n =>
      Elements P E items n ∧ items.length = count := by
  refine (spends_elementHead hvalue).bind fun ⟨descriptor, code⟩ m hhead => ?_
  refine spends_get_bind fun rest => ?_
  refine (spends_limitCount "array" count (elementLimit code rest)).bind fun _ k hlimit => ?_
  obtain ⟨rfl, hcount⟩ := hlimit
  refine (spends_contents helement code rest hcount).bind fun contents n hcontents => ?_
  obtain ⟨c, hall, hbody, hlength⟩ := hcontents
  rcases hhead with ⟨rfl, rfl⟩ | ⟨d, l, rfl, hd, rfl⟩
  · refine spends_pure ⟨?_, hlength⟩
    have hrow := Elements.bare (P := P) c hall hbody
    rwa [show 1 + (0 + (n + 0)) = n + 1 by omega]
  · refine spends_pure ⟨?_, by rwa [List.length_map]⟩
    have hrow := Elements.described c hd hall hbody
    rwa [show l + 2 + (0 + (n + 0)) = l + n + 2 by omega]

theorem spends_arrayContentOf (hvalue : Spends value P)
    (helement : ∀ code, Spends (element code) fun v m =>
      ∃ c, Constructor.ofCode? code = some c ∧ E c v m) (c : Constructor) (width : Width) :
    Spends (arrayContentOf value element width) (Content P E c) := by
  refine (spends_compoundContent "array" width).bind fun ⟨count, content⟩ m h => ?_
  obtain ⟨rfl, -⟩ := h
  refine ((spends_elements hvalue helement count).within content).map fun items l hitems => ?_
  obtain ⟨rfl, n, hn, hall, rfl⟩ := hitems
  exact .array hall hn

/-! ### Values without other values -/

theorem length_encodeVariable_le (type : Width → Constructor) {width : Width} {content : Bytes}
    (h : content.length < Word.count width.octets) :
    (encodeVariable type content).length ≤ width.octets + content.length + 1 := by
  unfold encodeVariable
  dsimp only
  split_ifs with hsmall
  · cases width <;> simp only [Width.octets, List.length_cons] <;> omega
  · cases width with
    | narrow => exact absurd h hsmall
    | wide =>
      simp only [Width.octets, List.length_cons, List.length_append, Word.length_encode]
      omega

theorem length_encode_uint_le (x : UInt32) : (uint x).encode.length ≤ 5 := by
  simp only [encode]
  split_ifs <;> simp

theorem length_encode_ulong_le (x : UInt64) : (ulong x).encode.length ≤ 9 := by
  simp only [encode]
  split_ifs <;> simp

theorem length_encode_int_le (x : Int32) : (int x).encode.length ≤ 5 := by
  simp only [encode]
  split_ifs <;> simp

theorem length_encode_long_le (x : Int64) : (long x).encode.length ≤ 9 := by
  simp only [encode]
  split_ifs <;> simp

theorem length_encode_char (c : Char) : (char c).encode.length = 5 := by
  simp [encode]

/-- A number that is read from one octet is written as one. -/
theorem length_encode_smallUint_le (x : UInt8) : (uint x.toUInt32).encode.length ≤ 2 := by
  have hx : x.toUInt32 < 256 := UInt32.lt_iff_toNat_lt.2 (by simpa using x.toNat_lt)
  simp only [encode, if_pos hx]
  split_ifs <;> simp

theorem length_encode_smallUlong_le (x : UInt8) : (ulong x.toUInt64).encode.length ≤ 2 := by
  have hx : x.toUInt64 < 256 := UInt64.lt_iff_toNat_lt.2 (by simpa using x.toNat_lt)
  simp only [encode, if_pos hx]
  split_ifs <;> simp

theorem length_encode_smallInt_le (x : Int8) : (int x.toInt32).encode.length ≤ 2 := by
  have hx : fitsByte x.toInt32.toInt = true := by
    rw [Int8.toInt_toInt32]
    exact fitsByte_iff.2 ⟨x.le_toInt, x.toInt_lt⟩
  rw [encode, if_pos hx]
  simp

theorem length_encode_smallLong_le (x : Int8) : (long x.toInt64).encode.length ≤ 2 := by
  have hx : fitsByte x.toInt64.toInt = true := by
    rw [Int8.toInt_toInt64]
    exact fitsByte_iff.2 ⟨x.le_toInt, x.toInt_lt⟩
  rw [encode, if_pos hx]
  simp

/-- A number of a fixed width. -/
theorem spends_word_map (c : Constructor) (what : String) {n : Nat} (hn : 0 < n)
    {f : Nat → Value} (hscalar : ∀ k, (f k).kind.isScalar = true)
    (hlength : ∀ k, (f k).encode.length ≤ n + 1) :
    Spends (word what n >>= fun k => pure (f k)) (Content P E c) := by
  refine (spends_word what n).map fun k m h => ?_
  obtain ⟨rfl, -⟩ := h
  exact .scalar (hscalar k) (fun hzero => absurd hzero (by omega)) (hlength k)

theorem spends_octet_map (c : Constructor) {f : UInt8 → Value}
    (hscalar : ∀ x, (f x).kind.isScalar = true) (hlength : ∀ x, (f x).encode.length ≤ 2) :
    Spends (octet >>= fun x => pure (f x)) (Content P E c) := by
  refine spends_octet.map fun x m h => ?_
  obtain rfl := h
  exact .scalar (hscalar x) (fun hzero => absurd hzero (by decide)) (hlength x)

theorem spends_charContent (c : Constructor) : Spends charContent (Content P E c) := by
  refine (spends_word "u32" 4).bind fun code m h => ?_
  obtain ⟨rfl, -⟩ := h
  by_cases hvalid : code.isValidChar
  · rw [dif_pos hvalid]
    exact spends_pure (.scalar rfl (fun hzero => absurd hzero (by decide))
      (Nat.le_of_eq (length_encode_char _)))
  · rw [dif_neg hvalid]
    exact spends_fail _

/-- Octets or text of variable length. -/
theorem content_of_variable (c : Constructor) {v : Value} (type : Width → Constructor)
    {width : Width} {content : Bytes} (hscalar : v.kind.isScalar = true)
    (hencode : v.encode = encodeVariable type content)
    (hcontent : content.length < Word.count width.octets) :
    Content P E c v (width.octets + content.length) := by
  refine .scalar hscalar (fun hzero => ?_) (hencode ▸ length_encodeVariable_le type hcontent)
  cases width <;> simp [Width.octets] at hzero

theorem spends_binary (c : Constructor) (what : String) (width : Width) :
    Spends (variableContent what width >>= fun b => pure (binary b)) (Content P E c) := by
  refine (spends_variableContent what width).map fun b m h => ?_
  obtain ⟨rfl, hb⟩ := h
  exact content_of_variable c .binary rfl (by rw [encode]) hb

theorem spends_string (c : Constructor) (what : String) (width : Width) :
    Spends (textContent what width >>= fun s => pure (string s)) (Content P E c) := by
  refine (spends_textContent what width).map fun s m h => ?_
  obtain ⟨rfl, hs⟩ := h
  exact content_of_variable c .string rfl (by rw [encode]) hs

theorem spends_symbol (c : Constructor) (what : String) (width : Width) :
    Spends (textContent what width >>= fun s => pure (symbol s)) (Content P E c) := by
  refine (spends_textContent what width).map fun s m h => ?_
  obtain ⟨rfl, hs⟩ := h
  exact content_of_variable c .symbol rfl (by rw [encode]) hs

/-- One level of the decoder. -/
theorem spends_contentOf (hvalue : Spends value P)
    (helement : ∀ code, Spends (element code) fun v m =>
      ∃ c, Constructor.ofCode? code = some c ∧ E c v m) (c : Constructor) :
    Spends (contentOf value element c) (Content P E c) := by
  cases c with
  | null => exact spends_pure (.scalar rfl (fun _ => rfl) (by simp [encode]))
  | boolTrue => exact spends_pure (.scalar rfl (fun _ => rfl) (by simp [encode]))
  | boolFalse => exact spends_pure (.scalar rfl (fun _ => rfl) (by simp [encode]))
  | uintZero => exact spends_pure (.scalar rfl (fun _ => rfl) (by simp [encode]))
  | ulongZero => exact spends_pure (.scalar rfl (fun _ => rfl) (by simp [encode]))
  | emptyList => exact spends_pure (.emptyList rfl)
  | boolean => exact spends_octet_map _ (fun _ => rfl) (by simp [encode])
  | ubyte => exact spends_octet_map _ (fun _ => rfl) (by simp [encode])
  | smallUint => exact spends_octet_map _ (fun _ => rfl) length_encode_smallUint_le
  | smallUlong => exact spends_octet_map _ (fun _ => rfl) length_encode_smallUlong_le
  | byte => exact spends_word_map _ _ (by decide) (fun _ => rfl) (by simp [encode])
  | smallInt =>
    exact spends_word_map _ _ (by decide) (fun _ => rfl) fun _ => length_encode_smallInt_le _
  | smallLong =>
    exact spends_word_map _ _ (by decide) (fun _ => rfl) fun _ => length_encode_smallLong_le _
  | ushort => exact spends_word_map _ _ (by decide) (fun _ => rfl) (by simp [encode])
  | short => exact spends_word_map _ _ (by decide) (fun _ => rfl) (by simp [encode])
  | uint =>
    exact spends_word_map _ _ (by decide) (fun _ => rfl) fun _ => length_encode_uint_le _
  | int => exact spends_word_map _ _ (by decide) (fun _ => rfl) fun _ => length_encode_int_le _
  | float => exact spends_word_map _ _ (by decide) (fun _ => rfl) (by simp [encode])
  | char => exact spends_charContent _
  | ulong =>
    exact spends_word_map _ _ (by decide) (fun _ => rfl) fun _ => length_encode_ulong_le _
  | long => exact spends_word_map _ _ (by decide) (fun _ => rfl) fun _ => length_encode_long_le _
  | double => exact spends_word_map _ _ (by decide) (fun _ => rfl) (by simp [encode])
  | timestamp => exact spends_word_map _ _ (by decide) (fun _ => rfl) (by simp [encode])
  | uuid =>
    refine (spends_octets "uuid" 16).map fun b m h => ?_
    obtain ⟨-, rfl⟩ := h
    exact .scalar rfl (fun hzero => absurd hzero (by decide)) (by simp [encode])
  | binary width => cases width <;> exact spends_binary _ _ _
  | string width => cases width <;> exact spends_string _ _ _
  | symbol width => cases width <;> exact spends_symbol _ _ _
  | list width => exact spends_listContent hvalue _ width
  | map width => exact spends_mapContent hvalue _ width
  | array width => exact spends_arrayContentOf hvalue helement _ width

end Contents

/-! ## Values -/

section Values

variable {P : Value → Nat → Prop} {E : Constructor → Value → Nat → Prop}

theorem spends_contentWith {value : Decoder Value} {element : UInt8 → Decoder Value}
    (hcontent : ∀ c v m, Content P E c v m → E c v m) (hvalue : Spends value P)
    (helement : ∀ code, Spends (element code) fun v m =>
      ∃ c, Constructor.ofCode? code = some c ∧ E c v m) (code : UInt8) :
    Spends (contentWith value element code) fun v m =>
      ∃ c, Constructor.ofCode? code = some c ∧ E c v m := by
  unfold contentWith
  cases hcode : Constructor.ofCode? code with
  | none => exact spends_fail _
  | some c =>
    exact (spends_contentOf hvalue helement c).mono fun v m h => ⟨c, rfl, hcontent c v m h⟩

theorem spends_missing (Q : Value → Nat → Prop) : Spends missing Q := by
  intro b a rest hok
  cases hok

/-- What holds of contents whose parts satisfy it, and of values behind their constructors, holds of
every value that is decoded. -/
theorem spends_of_decode (hcontent : ∀ c v m, Content P E c v m → E c v m)
    (hvalue : ∀ c v m, E c v m → P v (m + 1))
    (hdescribed : ∀ d v m n, P d m → P v n → P (described d v) (m + n + 1)) {b rest : Bytes}
    {v : Value} (h : decode b = .ok (v, rest)) : ∃ n, b.length = n + rest.length ∧ P v n := by
  -- Values and contents are read in turn, so one induction on the depth is about both.
  have hlevels : ∀ depth, Spends (valueAt depth) P ∧ ∀ code, Spends (contentAt depth code)
      fun v m => ∃ c, Constructor.ofCode? code = some c ∧ E c v m := by
    intro depth
    induction depth with
    | zero =>
      exact ⟨spends_missing P,
        spends_contentWith hcontent (spends_missing P) fun _ => spends_missing _⟩
    | succ depth ih =>
      refine ⟨?_, spends_contentWith hcontent ih.1 ih.2⟩
      rw [valueAt]
      refine spends_octet.bind fun code m hm => ?_
      obtain rfl := hm
      split_ifs
      · refine ih.1.bind fun d k hd => ih.1.map fun w l hw => ?_
        rw [Nat.add_comm 1]
        exact hdescribed d w k l hd hw
      · refine (ih.2 code).mono fun w l hw => ?_
        obtain ⟨c, -, hw⟩ := hw
        rw [Nat.add_comm 1]
        exact hvalue c w l hw
  exact (hlevels b.length).1 b v rest h

end Values

end Amqp.Value
