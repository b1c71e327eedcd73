import Amqp.Proofs.Transport.Conserving

/-!
# Frames that are refused by their headers

A read of a frame that is cut short, at whatever place, puts back all octets that it has taken.  One
that refuses the frame does not: the octets of its header are gone, and those behind them are read
next as if they were a frame (`restored_or_refused`).
-/

namespace Amqp.Transport

variable {t t' : Transport} {wait : Option Nat}

/-- A header that is refused is taken. -/
theorem takeFrame_of_refused {raw : Bytes} {header : FrameHeader} {f : Fault} (ceiling : Nat)
    (hraw : FrameHeader.ofBytes raw = .ok header)
    (hrefused : header.admission t.maxFrameSize = .refused f)
    (htake : take frameHeaderSize true wait t = .ok raw t') :
    takeFrame ceiling wait t = .error (.fault f) t' := by
  have hspec := takeSpec_take frameHeaderSize true wait t
  rw [htake] at hspec
  cases hspec with
  | done hlength htook =>
    rw [takeFrame_eq, Action.bind_of_ok htake, takeBehind_eq_takeAdmitted ceiling wait hraw,
      htook.maxFrameSize, hrefused]
    rfl

/-- A read of a frame that fails leaves the octets before the transport as they were, those that it
has taken from the stream in the buffer, unless it is the header that refuses the frame.  Then the
octets of the header are gone. -/
theorem restored_or_refused {ceiling : Nat} (hceiling : 0 < ceiling) {halt : Halt}
    (h : takeFrame ceiling wait t = .error halt t') :
    (t'.incoming = t.incoming ↔ ¬halt.IsRefusal) ∧
      (¬halt.IsRefusal → ∃ read, t'.buffer = t.buffer ++ read ∧
        arriving t.stream.reads = read ++ arriving t'.stream.reads) ∧
      (halt.IsRefusal → ∃ raw header f, raw.length = frameHeaderSize ∧
        FrameHeader.ofBytes raw = .ok header ∧
        header.admission t.maxFrameSize = .refused f ∧ halt = .fault f ∧
        raw ++ t'.incoming = t.incoming ∧ t'.buffer = t.buffer.drop frameHeaderSize) := by
  have hread := frameRead_takeFrame hceiling wait t
  rw [h] at hread
  cases hread with
  | cut hhalt hback hfront =>
    exact ⟨⟨fun _ => hhalt, fun _ => hback.incoming_eq⟩, fun _ => hback.exists_read,
      fun hrefusal => absurd hrefusal hhalt⟩
  | @refused raw header f _ hlength hraw hrefused htook =>
    obtain ⟨cause, rfl⟩ := FrameHeader.malformed_of_refused hrefused
    have hrefusal : Halt.IsRefusal (.fault (.malformed cause)) := ⟨cause, rfl⟩
    have hless : t'.incoming.length < t.incoming.length :=
      htook.length_lt (by rw [hlength]; decide)
    have hlost : t'.incoming ≠ t.incoming := fun hsame =>
      Nat.ne_of_lt hless (congrArg List.length hsame)
    refine ⟨⟨fun hsame => absurd hsame hlost, fun hnot => absurd hrefusal hnot⟩,
      fun hnot => absurd hrefusal hnot, fun _ => ?_⟩
    exact ⟨raw, header, _, hlength, hraw, hrefused, rfl, htook.incoming_eq,
      hlength ▸ htook.buffer_eq⟩

/-- A result that gives nothing has stopped short. -/
theorem exists_eq_error {α : Type} {r : EStateM.Result Halt Transport α} (h : given? r = none) :
    ∃ halt, r = .error halt (leftBy r) := by
  cases r with
  | ok a t => cases h
  | error halt t => exact ⟨halt, rfl⟩

/-- A frame of a type that is not supported. -/
def foreignFrame : Transport where
  host := ""
  port := 0
  tls := none
  readTimeout := some 50
  writeTimeout := none
  toleratesInterrupt := true
  stream :=
    { horizon := 1000
      reads := [.octets [0, 0, 0, 16, 2, 1, 0, 0, 1, 2, 3, 4, 5, 6, 7, 8]] }
  isOpen := true
  isConnected := true

/-- The body of a refused frame is left without its header. -/
theorem refused_of_foreignFrame :
    ∃ halt, 0 < 8 ∧
      takeFrame 8 none foreignFrame = .error halt (leftBy (takeFrame 8 none foreignFrame)) ∧
      halt.IsRefusal ∧
      (leftBy (takeFrame 8 none foreignFrame)).incoming = [1, 2, 3, 4, 5, 6, 7, 8] := by
  have hnothing : given? (takeFrame 8 none foreignFrame) = none := by decide +kernel
  have hleft : (leftBy (takeFrame 8 none foreignFrame)).incoming = [1, 2, 3, 4, 5, 6, 7, 8] := by
    decide +kernel
  obtain ⟨halt, hhalt⟩ := exists_eq_error hnothing
  have hrestored := (restored_or_refused (by decide) hhalt).1
  rw [hleft] at hrestored
  have hrefusal : halt.IsRefusal :=
    Classical.not_not.1 fun hnot => absurd (hrestored.2 hnot) (by decide)
  exact ⟨halt, by decide, hhalt, hrefusal, hleft⟩

/-- Not all reads of frames that fail leave the octets before the transport as they were. -/
theorem not_restored_of_foreignFrame :
    ¬∀ (ceiling : Nat) (wait : Option Nat) (t t' : Transport) (halt : Halt), 0 < ceiling →
      takeFrame ceiling wait t = .error halt t' → t'.incoming = t.incoming := by
  intro hrestored
  have hnothing : given? (takeFrame 8 none foreignFrame) = none := by decide +kernel
  obtain ⟨halt, hhalt⟩ := exists_eq_error hnothing
  have hsame := hrestored 8 none foreignFrame _ halt (by decide) hhalt
  have hlost : (leftBy (takeFrame 8 none foreignFrame)).incoming ≠ foreignFrame.incoming := by
    decide +kernel
  exact hlost hsame

end Amqp.Transport
