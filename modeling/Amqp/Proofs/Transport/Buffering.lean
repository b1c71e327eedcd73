import Amqp.Proofs.Transport.Delivery
import Amqp.Proofs.Transport.Refusing

/-!
# How much a transport buffers

However the octets of a stream are cut, and however often reads time out, are interrupted or fail,
the buffer of a transport holds the front of one frame at most, whose header has been accepted as
soon as it is complete (`CutOff`).  One call of `receive` keeps this (`CutOff.after`), so a run of
calls does (`CutOff.afterAll`).  The front of an accepted frame is shorter than the greatest frame
that is accepted, and a longer frame is refused by its header, before any of the octets behind it
are read (`buffer_bounded`).
-/

namespace Amqp

namespace FrameHeader

variable {limit : UInt32} {h : FrameHeader}

theorem le_length_of_ofBytes {b : Bytes} (hb : ofBytes b = .ok h) :
    frameHeaderSize ≤ b.length := by
  unfold ofBytes at hb
  split at hb
  · exact Nat.le_add_left _ _
  · cases hb

/-- How many octets are taken of a frame: all of them, or only those of the header that refuses
it. -/
def span (limit : UInt32) (h : FrameHeader) : Nat :=
  match h.admission limit with
  | .full _ => h.size.toNat
  | .refused _ => frameHeaderSize
  | .empty => frameHeaderSize

theorem span_of_full {skip : Nat} (hfull : h.admission limit = .full skip) :
    h.span limit = h.size.toNat := by
  unfold span
  rw [hfull]

theorem span_of_refused {f : Fault} (hrefused : h.admission limit = .refused f) :
    h.span limit = frameHeaderSize := by
  unfold span
  rw [hrefused]

theorem span_of_empty (hempty : h.admission limit = .empty) : h.span limit = frameHeaderSize := by
  unfold span
  rw [hempty]

end FrameHeader

/-! ## Runs of reads that meet octets only -/

theorem fill_segments (o : ReadPolicy) (horizon : Nat) {missing : Nat} {segments : List Bytes}
    (hsegments : ∀ b ∈ segments, b ≠ []) (hpositive : 0 < missing)
    (henough : missing ≤ segments.flatten.length) (deadline : Option Nat) (interrupted : Bool)
    (octets : Bytes) (now : Nat) (rest : List ReadEvent) :
    (fill o horizon missing deadline interrupted octets now
      (segments.map ReadEvent.octets ++ rest)).result = .ok () := by
  induction segments generalizing missing deadline octets with
  | nil => exact absurd henough (Nat.not_le.2 hpositive)
  | cons b segments ih =>
    obtain ⟨hb, hsegments⟩ := List.forall_mem_cons.1 hsegments
    rw [List.flatten_cons, List.length_append] at henough
    rw [List.map_cons, List.cons_append, fill, if_neg (by rwa [List.isEmpty_iff])]
    split_ifs
    · rfl
    · rfl
    · exact ih hsegments (by omega) (by omega) _ _

namespace Transport

variable {t t' x : Transport} {wait : Option Nat} {limit : UInt32}

/-- Whether a number of octets are in the buffer of a transport, or arrive one after another. -/
def Offers (size : Nat) (t : Transport) : Prop :=
  size ≤ t.buffer.length ∨
    t.isOpen = true ∧ ∃ (segments : List Bytes) (rest : List ReadEvent),
      t.stream.reads = segments.map ReadEvent.octets ++ rest ∧ (∀ b ∈ segments, b ≠ []) ∧
      size ≤ t.buffer.length + segments.flatten.length

theorem take_of_offers {size : Nat} (h : t.Offers size) (initial : Bool) (wait : Option Nat) :
    ∃ b t', take size initial wait t = .ok b t' := by
  rcases Nat.lt_or_ge t.buffer.length size with hshort | hbuffered
  · rcases h with h | ⟨hopen, segments, rest, hreads, hsegments, henough⟩
    · exact absurd h (Nat.not_le.2 hshort)
    rw [take_of_isOpen hshort hopen]
    have hresult : (t.filled size initial wait).result = .ok () := by
      unfold filled
      rw [hreads]
      exact fill_segments _ _ hsegments (by omega) (by omega) _ _ _ _ _
    unfold finished
    rw [hresult]
    exact ⟨_, _, rfl⟩
  · rw [take_of_buffered hbuffered]
    exact ⟨_, _, rfl⟩

/-! ## One call -/

/-- Whether octets are a whole frame, or the header of a frame that is refused. -/
def IsTaken (limit : UInt32) (b : Bytes) : Prop :=
  ∃ header, FrameHeader.ofBytes b = .ok header ∧ b.length = header.span limit

/-- How receiving comes out. -/
inductive Receipt (t : Transport) :
    EStateM.Result Halt Transport (Option (UInt16 × Frame)) → Prop
  /-- It gives nothing, and puts back a part of a frame. -/
  | nothing {t' : Transport} (hback : PutBack t t') (hfront : IsFront t.maxFrameSize t'.buffer) :
      Receipt t (.ok none t')
  /-- It fails, and puts back a part of a frame. -/
  | cut {halt : Halt} {t' : Transport} (hback : PutBack t t')
      (hfront : IsFront t.maxFrameSize t'.buffer) : Receipt t (.error halt t')
  /-- It gives a frame. -/
  | frame {b : Bytes} {got : UInt16 × Frame} {t' : Transport} (htaken : IsTaken t.maxFrameSize b)
      (htook : Took b t t') : Receipt t (.ok (some got) t')
  /-- The frame is refused, or can not be read. -/
  | bad {b : Bytes} {f : Fault} {t' : Transport} (htaken : IsTaken t.maxFrameSize b)
      (htook : Took b t t') : Receipt t (.error (.fault f) t')

theorem PutBack.disconnect (h : PutBack t t') (isConnected : Bool) :
    PutBack t { t' with isConnected } :=
  ⟨h.incoming_eq, h.length_le, h.maxFrameSize⟩

theorem Took.disconnect {b : Bytes} (h : Took b t t') (isConnected : Bool) :
    Took b t { t' with isConnected } :=
  ⟨h.incoming_eq, h.buffer_eq, h.maxFrameSize⟩

theorem readRaw_of_ok {raw : Bytes} {header : FrameHeader} {body : Option Bytes}
    (h : takeFrame readCeiling wait t = .ok (raw, header, body) t') :
    readRaw wait t = .ok (raw, header.channel, body) t' := by
  have hwatched : watched (takeFrame readCeiling wait) t = .ok (raw, header, body) t' := by
    unfold watched
    rw [h]
  unfold readRaw
  rw [Action.bind_of_ok hwatched]
  rfl

/-- Only a fault other than a timeout ends the connected state. -/
theorem readRaw_of_error {halt : Halt} (h : takeFrame readCeiling wait t = .error halt t') :
    ∃ isConnected, readRaw wait t = .error halt { t' with isConnected } := by
  have hwatched : ∃ isConnected,
      watched (takeFrame readCeiling wait) t = .error halt { t' with isConnected } := by
    unfold watched
    rw [h]
    cases halt with
    | stalled => exact ⟨t'.isConnected, rfl⟩
    | fault f =>
      dsimp only
      split_ifs
      · exact ⟨t'.isConnected, rfl⟩
      · exact ⟨false, rfl⟩
  obtain ⟨isConnected, hwatched⟩ := hwatched
  exact ⟨isConnected, Action.bind_of_error hwatched⟩

/-- What is read with its header is a whole frame. -/
theorem receipt_of_took {raw b : Bytes} {header : FrameHeader} {body : Option Bytes}
    (h : takeFrame readCeiling wait t = .ok (raw, header, body) t')
    (htaken : IsTaken t.maxFrameSize b) (htook : Took b t t') : Receipt t (receive wait t) := by
  have hraw := readRaw_of_ok h
  unfold receive
  rw [hraw]
  dsimp only
  cases decodeBody raw body with
  | ok frame => exact .frame htaken htook
  | error f => exact .bad htaken htook

/-- Every call of `receive`. -/
theorem receipt_receive (wait : Option Nat) (t : Transport) : Receipt t (receive wait t) := by
  have hread := frameRead_takeFrame (by decide : 0 < readCeiling) wait t
  generalize hresult : takeFrame readCeiling wait t = r at hread
  cases hread with
  | @cut halt t' hhalt hback hfront =>
    obtain ⟨isConnected, hraw⟩ := readRaw_of_error hresult
    have hback' := hback.disconnect isConnected
    unfold receive
    rw [hraw]
    cases halt with
    | stalled => exact .cut hback' hfront
    | fault f =>
      cases f with
      | timeout => exact .nothing hback' hfront
      | _ => exact .cut hback' hfront
  | @refused raw header f t' hlength hraw hrefused htook =>
    obtain ⟨isConnected, hread⟩ := readRaw_of_error hresult
    obtain ⟨cause, rfl⟩ := FrameHeader.malformed_of_refused hrefused
    unfold receive
    rw [hread]
    exact .bad ⟨header, hraw, hlength.trans (FrameHeader.span_of_refused hrefused).symm⟩
      (htook.disconnect isConnected)
  | @empty raw header t' hlength hraw hempty htook =>
    exact receipt_of_took hresult
      ⟨header, hraw, hlength.trans (FrameHeader.span_of_empty hempty).symm⟩ htook
  | @full raw payload header skip t' hlength hraw hfull hsize htook =>
    have hwhole := FrameHeader.ofBytes_append hraw payload
    exact receipt_of_took hresult
      ⟨header, hwhole, hsize.trans (FrameHeader.span_of_full hfull).symm⟩ htook

/-- A header that is too large is refused, with the octets behind it still to come. -/
theorem receive_of_frameTooLarge {raw : Bytes} {header : FrameHeader}
    (hraw : FrameHeader.ofBytes raw = .ok header) (hsize : t.maxFrameSize < header.size)
    (htake : take frameHeaderSize true wait t = .ok raw t') :
    receive wait t =
      .error (.fault (.malformed (.frameTooLarge header.size header.channel t.maxFrameSize)))
        { t' with isConnected := false } := by
  have hframe := takeFrame_of_refused readCeiling hraw (FrameHeader.admission_of_lt hsize) htake
  have hwatched : watched (takeFrame readCeiling wait) t =
      .error (.fault (.malformed (.frameTooLarge header.size header.channel t.maxFrameSize)))
        { t' with isConnected := false } := by
    unfold watched
    rw [hframe]
    rfl
  have hread : readRaw wait t = _ := Action.bind_of_error hwatched
  unfold receive
  rw [hread]

/-! ## Runs of calls -/

/-- A transport after calls of `receive`, whatever each of them gives. -/
def afterAll (calls : List Call) (t : Transport) : Transport :=
  calls.foldl (fun t c => leftBy (receive c.wait (t.elapse c.pause))) t

theorem IsFront.length_lt {b : Bytes} (h : IsFront limit b) :
    b.length < max frameHeaderSize limit.toNat := by
  rcases h with hshort | ⟨header, skip, -, hfull, hshort⟩
  · exact Nat.lt_of_lt_of_le hshort (Nat.le_max_left _ _)
  · have hsize := (FrameHeader.size_of_full hfull).2
    exact Nat.lt_of_lt_of_le (Nat.lt_of_lt_of_le hshort hsize) (Nat.le_max_right _ _)

/-- Taking a whole frame, or a header that refuses one, empties the buffer that holds its front. -/
theorem Took.buffer_eq_nil {b : Bytes} (h : Took b t t') (htaken : IsTaken limit b)
    (hfront : IsFront limit t.buffer) : t'.buffer = [] := by
  obtain ⟨header, hb, hlength⟩ := htaken
  have hheader := FrameHeader.le_length_of_ofBytes hb
  rw [h.buffer_eq]
  refine List.drop_of_length_le ?_
  rcases hfront with hshort | ⟨header', skip, hbuffer, hfull, hshort⟩
  · exact Nat.le_trans (Nat.le_of_lt hshort) hheader
  · -- both begin with the same header
    have hincoming := FrameHeader.ofBytes_append hbuffer (arriving t.stream.reads)
    have htogether := FrameHeader.ofBytes_append hb t'.incoming
    rw [h.incoming_eq] at htogether
    obtain rfl : header' = header := Except.ok.inj (hincoming.symm.trans htogether)
    rw [hlength, FrameHeader.span_of_full hfull]
    exact Nat.le_of_lt hshort

/-- A transport that has cut frames off the octets before another one, the header alone where it
has refused the frame, and holds the front of the next frame at most. -/
structure CutOff (t x : Transport) : Prop where
  maxFrameSize : x.maxFrameSize = t.maxFrameSize
  isFront : IsFront t.maxFrameSize x.buffer
  exists_cuts : ∃ cuts : List Bytes, (∀ b ∈ cuts, IsTaken t.maxFrameSize b) ∧
    cuts.flatten ++ x.incoming = t.incoming

theorem CutOff.of_nil (h : t.buffer = []) : CutOff t t :=
  ⟨rfl, Or.inl (h ▸ by decide), [], List.forall_mem_nil _, rfl⟩

theorem CutOff.putBack (h : CutOff t x) (hback : PutBack x t')
    (hfront : IsFront x.maxFrameSize t'.buffer) : CutOff t t' where
  maxFrameSize := hback.maxFrameSize.trans h.maxFrameSize
  isFront := h.maxFrameSize ▸ hfront
  exists_cuts := hback.incoming_eq ▸ h.exists_cuts

theorem CutOff.took {b : Bytes} (h : CutOff t x) (htaken : IsTaken x.maxFrameSize b)
    (htook : Took b x t') : CutOff t t' ∧ t'.buffer = [] := by
  rw [h.maxFrameSize] at htaken
  have hnil := htook.buffer_eq_nil htaken h.isFront
  obtain ⟨cuts, htakens, htogether⟩ := h.exists_cuts
  refine ⟨⟨htook.maxFrameSize.trans h.maxFrameSize, Or.inl (hnil ▸ by decide), cuts ++ [b], ?_, ?_⟩,
    hnil⟩
  · exact List.forall_mem_append.2 ⟨htakens, List.forall_mem_singleton.2 htaken⟩
  · rw [List.flatten_append, List.flatten_singleton, List.append_assoc, htook.incoming_eq,
      htogether]

theorem CutOff.elapse (h : CutOff t x) (milliseconds : Nat) : CutOff t (x.elapse milliseconds) :=
  ⟨h.maxFrameSize, h.isFront, h.exists_cuts⟩

/-- One call keeps it. -/
theorem CutOff.after (h : CutOff t x) (wait : Option Nat) : CutOff t (leftBy (receive wait x)) := by
  have hreceipt := receipt_receive wait x
  generalize receive wait x = r at hreceipt
  cases hreceipt with
  | nothing hback hfront => exact h.putBack hback hfront
  | cut hback hfront => exact h.putBack hback hfront
  | frame htaken htook => exact (h.took htaken htook).1
  | bad htaken htook => exact (h.took htaken htook).1

/-- Every run of calls keeps it. -/
theorem CutOff.afterAll (h : CutOff t x) (calls : List Call) : CutOff t (x.afterAll calls) := by
  induction calls generalizing x with
  | nil => exact h
  | cons c calls ih => exact ih ((h.elapse c.pause).after c.wait)

/-- A call that gives a frame empties the buffer. -/
theorem CutOff.buffer_eq_nil {frame : UInt16 × Frame} (h : CutOff t x)
    (hgot : receive wait x = .ok (some frame) t') : t'.buffer = [] := by
  have hreceipt := receipt_receive wait x
  rw [hgot] at hreceipt
  cases hreceipt with
  | frame htaken htook => exact (h.took htaken htook).2

/-! ## Frames that are too large -/

/-- Whether a call has refused the next frame as too large, with its header read and nothing behind
it. -/
def RefusesTooLarge (header : FrameHeader) (x : Transport)
    (r : EStateM.Result Halt Transport (Option (UInt16 × Frame))) : Prop :=
  ∃ t', r =
      .error (.fault (.malformed (.frameTooLarge header.size header.channel x.maxFrameSize))) t' ∧
    t'.incoming = x.incoming.drop frameHeaderSize ∧ t'.buffer = [] ∧ t'.isConnected = false

/-- Whether a call has given no frame, with a part of the next header read at most. -/
def AwaitsHeader (x : Transport)
    (r : EStateM.Result Halt Transport (Option (UInt16 × Frame))) : Prop :=
  (∀ frame, given? r ≠ some (some frame)) ∧ (leftBy r).incoming = x.incoming ∧
    (leftBy r).buffer.length < frameHeaderSize

section

variable {header : FrameHeader} (hincoming : FrameHeader.ofBytes x.incoming = .ok header)
  (hsize : x.maxFrameSize < header.size)

include hincoming hsize

theorem refusesTooLarge_of_take {raw : Bytes} (hfront : IsFront x.maxFrameSize x.buffer)
    (htake : take frameHeaderSize true wait x = .ok raw t') :
    RefusesTooLarge header x (receive wait x) := by
  have hspec := takeSpec_take frameHeaderSize true wait x
  rw [htake] at hspec
  cases hspec with
  | done hlength htook =>
    obtain ⟨header', hraw⟩ := FrameHeader.exists_ofBytes hlength
    have htogether := FrameHeader.ofBytes_append hraw t'.incoming
    rw [htook.incoming_eq, hincoming] at htogether
    obtain rfl := Except.ok.inj htogether
    have hrefused := FrameHeader.admission_of_lt hsize
    have htaken : IsTaken x.maxFrameSize raw :=
      ⟨header, hraw, hlength.trans (FrameHeader.span_of_refused hrefused).symm⟩
    have hnil := htook.buffer_eq_nil htaken hfront
    refine ⟨_, receive_of_frameTooLarge hraw hsize htake, ?_, hnil, rfl⟩
    rw [← htook.incoming_eq, ← hlength, List.drop_left]
    rfl

theorem refusesTooLarge_of_offers (hfront : IsFront x.maxFrameSize x.buffer)
    (hoffers : x.Offers frameHeaderSize) : RefusesTooLarge header x (receive wait x) := by
  obtain ⟨raw, t', htake⟩ := take_of_offers hoffers true wait
  exact refusesTooLarge_of_take hincoming hsize hfront htake

theorem refusesTooLarge_or_awaitsHeader (hfront : IsFront x.maxFrameSize x.buffer) :
    RefusesTooLarge header x (receive wait x) ∨ AwaitsHeader x (receive wait x) := by
  have hspec := takeSpec_take frameHeaderSize true wait x
  generalize hresult : take frameHeaderSize true wait x = r at hspec
  cases hspec with
  | done hlength htook => exact Or.inl (refusesTooLarge_of_take hincoming hsize hfront hresult)
  | @cut halt t' hhalt hback hshort =>
    have hframe : takeFrame readCeiling wait x = .error halt t' := Action.bind_of_error hresult
    obtain ⟨isConnected, hread⟩ := readRaw_of_error hframe
    have hleft : leftBy (receive wait x) = { t' with isConnected } := by
      unfold receive
      rw [hread]
      cases halt with
      | stalled => rfl
      | fault f => cases f <;> rfl
    have hnothing : ∀ frame, given? (receive wait x) ≠ some (some frame) := by
      unfold receive
      rw [hread]
      cases halt with
      | stalled => exact fun _ => nofun
      | fault f => cases f <;> exact fun _ => nofun
    refine Or.inr ⟨hnothing, ?_, ?_⟩
    · rw [hleft]
      exact hback.incoming_eq
    · rw [hleft]
      exact hshort

end

/-- After calls of `receive` on a transport that has nothing in its buffer at first, whatever the
stream brings and however the calls come out, the buffer holds the front of one frame at most, whose
header has been accepted if it is complete.  So it is shorter than the greatest frame or than a
header.  The next call leaves nothing in the buffer if it gives a frame.  If the next frame is too
large, then the call refuses it with only the header read, or the header is not complete yet, and it
does refuse it if the octets of the header arrive. -/
theorem buffer_bounded (hempty : t.buffer = []) (calls : List Call)
    (hx : t.afterAll calls = x) :
    CutOff t x ∧ x.buffer.length < max frameHeaderSize t.maxFrameSize.toNat ∧
      ∀ c : Call,
        (∀ frame t', receive c.wait (x.elapse c.pause) = .ok (some frame) t' → t'.buffer = []) ∧
        ∀ header, FrameHeader.ofBytes x.incoming = .ok header → t.maxFrameSize < header.size →
          (RefusesTooLarge header x (receive c.wait (x.elapse c.pause)) ∨
            AwaitsHeader x (receive c.wait (x.elapse c.pause))) ∧
          (x.Offers frameHeaderSize →
            RefusesTooLarge header x (receive c.wait (x.elapse c.pause))) := by
  have hcut : CutOff t x := hx ▸ (CutOff.of_nil hempty).afterAll calls
  refine ⟨hcut, hcut.isFront.length_lt, fun c => ?_⟩
  have hlater := hcut.elapse c.pause
  refine ⟨fun frame t' hgot => hlater.buffer_eq_nil hgot, fun header hheader hsize => ?_⟩
  rw [← hcut.maxFrameSize] at hsize
  have hfront : IsFront x.maxFrameSize x.buffer := hcut.maxFrameSize ▸ hcut.isFront
  -- letting time pass changes neither the octets nor the buffer
  exact ⟨refusesTooLarge_or_awaitsHeader (x := x.elapse c.pause) hheader hsize hfront,
    refusesTooLarge_of_offers (x := x.elapse c.pause) hheader hsize hfront⟩

/-- A heartbeat and a frame of seventeen octets, on a transport that accepts sixteen, with a timeout
inside the second header. -/
def oversizedFrame : Transport where
  host := ""
  port := 0
  tls := none
  readTimeout := some 20
  writeTimeout := none
  toleratesInterrupt := true
  maxFrameSize := 16
  stream :=
    { horizon := 1000
      reads := [.octets [0, 0, 0, 8, 2, 0, 0, 0, 0, 0, 0], .fault .timedOut,
        .octets [17, 2], .octets [0, 0, 1, 0, 83, 36, 69]] }
  isOpen := true
  isConnected := true

theorem buffer_of_oversizedFrame :
    oversizedFrame.buffer = [] ∧ ∃ x, oversizedFrame.afterAll [{}, {}] = x ∧
      x.buffer = [0, 0, 0] ∧ x.buffer.length < max frameHeaderSize 16 ∧
      RefusesTooLarge ⟨17, 2, 0, 1⟩ x (receive none (x.elapse 0)) := by
  obtain ⟨-, hlength, hnext⟩ := buffer_bounded (t := oversizedFrame) rfl [{}, {}] rfl
  refine ⟨rfl, _, rfl, by decide +kernel, hlength, ((hnext {}).2 ⟨17, 2, 0, 1⟩ ?_ (by decide)).2 ?_⟩
  · have hincoming : (oversizedFrame.afterAll [{}, {}]).incoming =
        [0, 0, 0, 17, 2, 0, 0, 1, 0, 83, 36, 69] := by decide +kernel
    rw [hincoming]
    rfl
  · exact Or.inr ⟨by decide +kernel, [[17, 2], [0, 0, 1, 0, 83, 36, 69]], [], by decide +kernel,
      by decide, by decide +kernel⟩

end Transport

end Amqp
