import Amqp.Proofs.Action
import Amqp.Proofs.Transport.Delivery

/-!
# The two sides of a transport

Reads leave the writing side of a transport as it is (`keeps_receive`), whatever the stream brings.
Over a stream that takes whatever it is given, a write succeeds at once (`write_eq`).  A transport
that has given up its stream is not changed any more by receiving, which fails
(`receive_of_isClosed`).
-/

namespace Amqp

namespace Transport

variable {t : Transport}

/-! ## Streams that take everything -/

/-- An open transport over a stream that takes everything. -/
structure IsWriting (t : Transport) : Prop where
  isOpen : t.isOpen = true
  succeeds : ∀ e ∈ t.stream.writes, e.Succeeds

theorem write_eq (ht : t.IsWriting) (data : Bytes) :
    ∃ writes taken,
      write data t = .ok () { t with stream := { t.stream with writes, taken } } ∧
        (∀ e ∈ writes, e.Succeeds) ∧ taken.reverse.flatten = t.stream.written ++ data := by
  obtain ⟨hok, hnow, hrest⟩ := pour_of_succeeds ht.succeeds t.stream.horizon
    (t.writeTimeout.map (t.stream.now + ·)) t.stream.taken t.stream.now data
  have htaken := flatten_taken_pour _ _ _ _ _ _ hok
  have hspec := write_spec data t
  generalize write data t = r at hspec ⊢
  cases hspec with
  | closed hopen => exact absurd (ht.isOpen.symm.trans hopen) (by decide)
  | done _ =>
    refine ⟨(t.poured data).rest, (t.poured data).taken, ?_, hrest, htaken⟩
    have hsame : (t.poured data).now = t.stream.now := hnow
    unfold withPoured
    rw [hsame]
  | failed f hresult => cases hok.symm.trans hresult
  | stalled hresult => cases hok.symm.trans hresult

/-! ## The writing side -/

/-- What a write depends on, besides the time: whether there is a stream, what it is going to take,
and what it has taken. -/
def writingSide (t : Transport) : Bool × List WriteEvent × List Bytes :=
  (t.isOpen, t.stream.writes, t.stream.taken)

theorem IsWriting.of_writingSide {t' : Transport} (h : t.IsWriting)
    (hsame : t'.writingSide = t.writingSide) : t'.IsWriting := by
  obtain ⟨hopen, hrest⟩ := Prod.ext_iff.1 hsame
  refine ⟨hopen.trans h.isOpen, fun e he => h.succeeds e ?_⟩
  exact (congrArg (fun rest : List WriteEvent × List Bytes => e ∈ rest.1) hrest).mp he

section

variable {side : Bool × List WriteEvent × List Bytes}

theorem keeps_watched {α : Type} {x : Action Transport α}
    (h : Action.Keeps (fun t => t.writingSide = side) x) :
    Action.Keeps (fun t => t.writingSide = side) (watched x) := by
  intro t ht
  have hx := h t ht
  unfold watched
  cases hresult : x t with
  | ok a t' =>
    rw [hresult] at hx
    exact hx
  | error halt t' =>
    rw [hresult] at hx
    cases halt with
    | stalled => exact hx
    | fault f =>
      dsimp only
      split_ifs <;> exact hx

theorem keeps_take (size : Nat) (initial : Bool) (wait : Option Nat) :
    Action.Keeps (fun t => t.writingSide = side) (take size initial wait) := by
  intro t ht
  unfold take
  dsimp only
  split_ifs
  · exact ht
  · exact ht
  · generalize fill _ _ _ _ _ _ _ _ = filled
    obtain ⟨result, octets, now, rest⟩ := filled
    cases result <;> exact ht

theorem keeps_takePieces (ceiling : Nat) (wait : Option Nat) (fuel missing : Nat) (read : Bytes) :
    Action.Keeps (fun t => t.writingSide = side) (takePieces ceiling wait fuel missing read) := by
  induction fuel generalizing missing read with
  | zero => exact Action.keeps_pure read
  | succ fuel ih =>
    intro t ht
    unfold takePieces
    split_ifs
    · exact ht
    · have hpiece := keeps_take (min ceiling missing) false wait t ht
      dsimp only
      cases hresult : take (min ceiling missing) false wait t with
      | ok piece t' =>
        rw [hresult] at hpiece
        exact ih _ _ t' hpiece
      | error halt t' =>
        rw [hresult] at hpiece
        exact hpiece

theorem keeps_takeFrame (ceiling : Nat) (wait : Option Nat) :
    Action.Keeps (fun t => t.writingSide = side) (takeFrame ceiling wait) := by
  unfold takeFrame
  refine (keeps_take _ _ _).bind fun raw => (Action.keeps_ofExcept _).bind fun header => ?_
  refine Action.keeps_get_bind fun t ht => ?_
  have hbody : Action.Keeps (fun t => t.writingSide = side) (do
      let skip ← Action.ofExcept header.extendedLength
      let read ← takePieces ceiling wait header.bodyLength header.bodyLength raw
      return (raw, header, some (read.drop (frameHeaderSize + skip)))) :=
    (Action.keeps_ofExcept _).bind fun _ => (keeps_takePieces _ _ _ _ _).bind fun _ =>
      Action.keeps_pure _
  dsimp only
  split
  · exact ht
  split
  · exact ht
  split
  · exact ht
  · exact hbody t ht

/-- Receiving leaves the writing side as it is. -/
theorem keeps_receive (wait : Option Nat) :
    Action.Keeps (fun t => t.writingSide = side) (receive wait) := by
  intro t ht
  have hraw : Action.Keeps (fun t => t.writingSide = side) (readRaw wait) :=
    (keeps_watched (keeps_takeFrame _ _)).bind fun _ => Action.keeps_pure _
  have h := hraw t ht
  unfold receive
  cases hresult : readRaw wait t with
  | ok r t' =>
    rw [hresult] at h
    dsimp only
    cases decodeBody r.1 r.2.2 <;> exact h
  | error halt t' =>
    rw [hresult] at h
    cases halt with
    | stalled => exact h
    | fault f => cases f <;> exact h

theorem keeps_readOctets (size : Nat) (wait : Option Nat) :
    Action.Keeps (fun t => t.writingSide = side) (readOctets size wait) :=
  keeps_watched (keeps_take _ _ _)

end

/-! ## Closed transports -/

/-- A transport that has given up its stream. -/
structure IsClosed (t : Transport) : Prop where
  isOpen : t.isOpen = false
  isConnected : t.isConnected = false
  buffer : t.buffer = []
  isTls : t.isTls = false

theorem isClosed_close (t : Transport) : t.close.IsClosed := ⟨rfl, rfl, rfl, rfl⟩

theorem IsClosed.close_eq (h : t.IsClosed) : t.close = t := by
  obtain ⟨host, port, tls, readTimeout, writeTimeout, toleratesInterrupt, maxFrameSize, stream,
    isOpen, buffer, isConnected, isTls⟩ := t
  obtain ⟨rfl, rfl, rfl, rfl⟩ := h
  simp only [close, Bool.or_false]

theorem take_of_isClosed (h : t.IsClosed) {size : Nat} (hsize : size ≠ 0) (initial : Bool)
    (wait : Option Nat) :
    take size initial wait t = .error (.fault (.closed .transportClosed)) t := by
  unfold take
  simp [h.isOpen, h.buffer, hsize.symm]

theorem receive_of_isClosed (h : t.IsClosed) (wait : Option Nat) :
    receive wait t = .error (.fault (.closed .transportClosed)) t := by
  have hframe : takeFrame readCeiling wait t = .error (.fault (.closed .transportClosed)) t :=
    Action.bind_of_error (take_of_isClosed h (by decide) true wait)
  have hwatched : watched (takeFrame readCeiling wait) t =
      .error (.fault (.closed .transportClosed)) t := by
    have hstays : { t with isConnected := false } = t := by
      rw [← h.isConnected]
    unfold watched
    rw [hframe]
    exact congrArg _ hstays
  have hraw : readRaw wait t = .error (.fault (.closed .transportClosed)) t :=
    Action.bind_of_error hwatched
  unfold receive
  rw [hraw]

end Transport

end Amqp
