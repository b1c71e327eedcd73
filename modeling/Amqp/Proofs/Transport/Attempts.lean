import Amqp.Proofs.Action
import Amqp.Proofs.Performative.Attempts
import Amqp.Proofs.Transport.Conserving

/-!
# Frames read with operations that can panic

A frame is read with a few operations that panic on too few octets: what is buffered is cut off the
buffer, the words of the header are taken off its front, and the extended header is cut off the
payload.  `Risky` actions carry them out as such.

`takeFrame_calm` says that reading a frame never panics, whatever the stream brings: the payload has
all the octets that the header announces, and the extended header is no longer than that.
-/

namespace Amqp

/-! ## Operations -/

namespace Attempt

/-- Cuts off octets and drops them.  Panics if there are fewer. -/
def advance (n : Nat) : Attempt Bytes Unit := fun b =>
  { result := if b.length < n then .error .panicked else .ok ((), b.drop n) }

/-- Takes the words of a header off its octets. -/
def headerWords : Attempt Bytes FrameHeader := do
  let size ← getWord 4
  let dataOffset ← getWord 1
  let type ← getWord 1
  let channel ← getWord 2
  return { size := UInt32.ofNat size, dataOffset := UInt8.ofNat dataOffset,
           type := UInt8.ofNat type, channel := UInt16.ofNat channel }

/-- Reads a header; octets behind it are ignored. -/
def header : Attempt Bytes FrameHeader := do
  let b ← current
  if b.length < frameHeaderSize then refuse (.malformed (.shortFrameHeader b.length))
  else
    let front ← splitTo frameHeaderSize
    apart front headerWords

end Attempt

/-- An action on a transport that can panic, in which case it gives nothing. -/
abbrev Risky (α : Type) := OptionT (Action Transport) α

namespace Risky

open Transport (restoring haltOf)

variable {α β : Type}

/-- Carries out an attempt on octets. -/
def attempt (x : Attempt Bytes α) (b : Bytes) : Risky (α × Bytes) :=
  match (x b).result with
  | .ok r => pure r
  | .error (.refused f) => OptionT.lift (Action.raise f)
  | .error _ => OptionT.fail

/-- Goes on reading where the buffer gave `buffered` and keeps `behind`. -/
def fillUp (size : Nat) (initial : Bool) (wait : Option Nat) (buffered behind : Bytes) :
    Action Transport Bytes := fun t =>
  if buffered.length = size then .ok buffered { t with buffer := behind }
  else if !t.isOpen then .error (.fault (.closed .transportClosed)) t
  else
    let o : ReadPolicy :=
      { timeout := wait <|> t.readTimeout, toleratesInterrupt := initial && t.toleratesInterrupt }
    let s := t.stream
    let filled :=
      fill o s.horizon (size - buffered.length) (o.deadline s.now) false buffered s.now s.reads
    let stream := { s with now := filled.now, reads := filled.rest }
    match filled.result with
    | .ok () => .ok filled.octets { t with stream, buffer := behind }
    | .error e => .error (haltOf e) { t with stream, buffer := filled.octets ++ behind }

/-- Reads a number of octets, those in the buffer first. -/
def take (size : Nat) (initial : Bool) (wait : Option Nat) : Risky Bytes := do
  let buffer := (← get).buffer
  let (buffered, behind) ← attempt (Attempt.splitTo (min size buffer.length)) buffer
  OptionT.lift (fillUp size initial wait buffered behind)

/-- Reads a payload of `size` octets in pieces of at most `ceiling` octets, behind `payload` and the
raw header. -/
def takePieces (ceiling : Nat) (wait : Option Nat) (raw : Bytes) :
    (fuel size : Nat) → (payload : Bytes) → Risky Bytes
  | 0, _, payload => pure payload
  | fuel + 1, size, payload =>
    if payload.length < size then do
      let chunk := min ceiling (size - payload.length)
      let piece ← OptionT.mk (restoring (raw ++ payload) (take chunk false wait).run)
      takePieces ceiling wait raw fuel size (payload ++ piece)
    else pure payload

/-- Reads the body of a frame behind its raw header. -/
def takeBody (ceiling : Nat) (wait : Option Nat) (raw : Bytes) (header : FrameHeader) :
    Risky Bytes := do
  let skip ← OptionT.lift (Action.ofExcept header.extendedLength)
  let payload ← takePieces ceiling wait raw header.bodyLength header.bodyLength []
  let (_, body) ← attempt (Attempt.advance skip) payload
  return body

/-- Reads a frame: its raw header, the header and, unless it is empty, its body. -/
def takeFrame (ceiling : Nat) (wait : Option Nat) :
    Risky (Bytes × FrameHeader × Option Bytes) := do
  let raw ← take frameHeaderSize true wait
  let (header, _) ← attempt Attempt.header raw
  let limit := (← get).maxFrameSize
  if limit < header.size then
    OptionT.lift (Action.raise (.malformed (.frameTooLarge header.size header.channel limit)))
  if header.isEmpty then return (raw, header, none)
  if header.type ≠ amqpFrameType then
    OptionT.lift (Action.raise (.malformed (.unsupportedFrameType header.type header.channel)))
  let body ← takeBody ceiling wait raw header
  return (raw, header, some body)

/-! ## Actions that do not panic -/

/-- The result of an action that does not panic. -/
def calm : EStateM.Result Halt Transport α → EStateM.Result Halt Transport (Option α)
  | .ok a t => .ok (some a) t
  | .error halt t => .error halt t

theorem bind_of_some {x : Risky α} {f : α → Risky β} {t t' : Transport} {a : α}
    (h : x.run t = .ok (some a) t') : (x >>= f).run t = (f a).run t' := by
  show (x.run >>= _) t = _
  rw [Action.bind_of_ok h]
  rfl

theorem bind_of_error {x : Risky α} {f : α → Risky β} {t t' : Transport} {halt : Halt}
    (h : x.run t = .error halt t') : (x >>= f).run t = .error halt t' :=
  Action.bind_of_error h

/-- Parts that do not panic make a whole that does not. -/
theorem bind_calm {x : Risky α} {y : Action Transport α} {f : α → Risky β}
    {g : α → Action Transport β} {t : Transport} (hx : x.run t = calm (y t))
    (hf : ∀ a t', y t = .ok a t' → (f a).run t' = calm (g a t')) :
    (x >>= f).run t = calm ((y >>= g) t) := by
  cases hy : y t with
  | ok a t' =>
    rw [hy] at hx
    rw [bind_of_some hx, Action.bind_of_ok hy]
    exact hf a t' hy
  | error halt t' =>
    rw [hy] at hx
    rw [bind_of_error hx, Action.bind_of_error hy]
    rfl

theorem lift_calm (y : Action Transport α) (t : Transport) :
    (OptionT.lift y : Risky α).run t = calm (y t) := by
  cases hy : y t with
  | ok a t' => exact Action.bind_of_ok hy
  | error halt t' => exact Action.bind_of_error hy

theorem attempt_of_ok {x : Attempt Bytes α} {b rest : Bytes} {a : α}
    (h : (x b).result = .ok (a, rest)) : attempt x b = pure (a, rest) := by
  unfold attempt
  rw [h]

theorem attempt_of_refused {x : Attempt Bytes α} {b : Bytes} {f : Fault}
    (h : (x b).result = .error (.refused f)) : attempt x b = OptionT.lift (Action.raise f) := by
  unfold attempt
  rw [h]

/-- What is buffered has the octets that are cut off. -/
theorem take_calm (size : Nat) (initial : Bool) (wait : Option Nat) (t : Transport) :
    (take size initial wait).run t = calm (t.take size initial wait) := by
  have hsplit : (Attempt.splitTo (min size t.buffer.length) t.buffer).result =
      .ok (t.buffer.take size, t.buffer.drop size) := by
    unfold Attempt.splitTo
    rw [if_neg (by omega)]
    rcases Nat.le_total size t.buffer.length with hle | hle
    · rw [Nat.min_eq_left hle]
    · rw [Nat.min_eq_right hle, List.take_of_length_le hle, List.drop_of_length_le hle,
        List.take_length, List.drop_length]
  have hfill := lift_calm (fillUp size initial wait (t.buffer.take size) (t.buffer.drop size)) t
  change (attempt (Attempt.splitTo (min size t.buffer.length)) t.buffer >>= fun p =>
    OptionT.lift (fillUp size initial wait p.1 p.2)).run t = _
  rw [attempt_of_ok hsplit]
  exact hfill

/-! ## Headers -/

theorem ofNat_decode_singleton (x : UInt8) : UInt8.ofNat (Word.decode [x]) = x := by
  simp [Word.decode]

theorem headerWords_result (s₃ s₂ s₁ s₀ dataOffset type c₁ c₀ : UInt8) :
    (Attempt.headerWords [s₃, s₂, s₁, s₀, dataOffset, type, c₁, c₀]).result =
      .ok ({ size := UInt32.ofNat (Word.decode [s₃, s₂, s₁, s₀]), dataOffset, type,
             channel := UInt16.ofNat (Word.decode [c₁, c₀]) }, []) := by
  have hwords : (Attempt.headerWords [s₃, s₂, s₁, s₀, dataOffset, type, c₁, c₀]).result =
      .ok ({ size := UInt32.ofNat (Word.decode [s₃, s₂, s₁, s₀]),
             dataOffset := UInt8.ofNat (Word.decode [dataOffset]),
             type := UInt8.ofNat (Word.decode [type]),
             channel := UInt16.ofNat (Word.decode [c₁, c₀]) }, []) := rfl
  rw [hwords, ofNat_decode_singleton, ofNat_decode_singleton]

/-- Behind the check for its length a header has all its words. -/
theorem header_result (b : Bytes) :
    (Attempt.header b).result =
      ((FrameHeader.ofBytes b).mapError .refused).map fun h => (h, b.drop frameHeaderSize) := by
  match b with
  | s₃ :: s₂ :: s₁ :: s₀ :: dataOffset :: type :: c₁ :: c₀ :: rest =>
    let front := [s₃, s₂, s₁, s₀, dataOffset, type, c₁, c₀]
    have hlong : ¬(front ++ rest).length < frameHeaderSize := by
      simp [front, frameHeaderSize]
    have hcut : (Attempt.splitTo frameHeaderSize (front ++ rest)).result = .ok (front, rest) := by
      unfold Attempt.splitTo
      rw [if_neg hlong]
      rfl
    have hread : (Attempt.header (front ++ rest)).result =
        ((if (front ++ rest).length < frameHeaderSize then
            Attempt.refuse (.malformed (.shortFrameHeader (front ++ rest).length))
          else Attempt.splitTo frameHeaderSize >>= fun front =>
            Attempt.apart front Attempt.headerWords : Attempt Bytes FrameHeader)
          (front ++ rest)).result := rfl
    change (Attempt.header (front ++ rest)).result = _
    rw [hread, if_neg hlong, Attempt.bind_of_ok hcut]
    change Except.map (fun (h, _) => (h, rest)) (Attempt.headerWords front).result = _
    rw [headerWords_result]
    rfl
  | [] | [_] | [_, _] | [_, _, _] | [_, _, _, _] | [_, _, _, _, _] | [_, _, _, _, _, _]
  | [_, _, _, _, _, _, _] => rfl

/-- The extended header is part of the payload. -/
theorem extendedLength_le {h : FrameHeader} {skip : Nat} (hskip : h.extendedLength = .ok skip) :
    skip ≤ h.bodyLength := by
  unfold FrameHeader.extendedLength at hskip
  dsimp only at hskip
  split_ifs at hskip with hinvalid
  cases hskip
  unfold FrameHeader.bodyLength
  omega

/-! ## Payloads -/

theorem length_of_restoring_take {size : Nat} {initial : Bool} {wait : Option Nat}
    {read piece : Bytes} {t t' : Transport}
    (h : restoring read (Transport.take size initial wait) t = .ok piece t') :
    piece.length = size := by
  have hconserves := (Transport.conserves_take size initial wait t).restoring read
  rw [h] at hconserves
  exact hconserves.1

/-- What was read in pieces has all the octets that were missing. -/
theorem length_of_takePieces {ceiling : Nat} (hceiling : 0 < ceiling) {wait : Option Nat}
    {fuel missing : Nat} (hfuel : missing ≤ fuel) {read b : Bytes} {t t' : Transport}
    (h : Transport.takePieces ceiling wait fuel missing read t = .ok b t') :
    b.length = read.length + missing := by
  rw [Transport.takePieces_eq hceiling wait hfuel, Transport.takeWhole] at h
  obtain ⟨payload, t₁, htake, hrest⟩ := Action.bind_eq_ok h
  cases hrest
  rw [List.length_append, length_of_restoring_take htake]

theorem restoring_calm (read : Bytes) {x : Risky α} {y : Action Transport α} {t : Transport}
    (h : x.run t = calm (y t)) :
    (OptionT.mk (restoring read x.run) : Risky α).run t = calm (restoring read y t) := by
  change restoring read x.run t = _
  unfold restoring
  rw [h]
  cases y t <;> rfl

theorem takePieces_done (ceiling : Nat) (wait : Option Nat) (raw : Bytes) (fuel : Nat)
    (payload : Bytes) (t : Transport) :
    (pure payload : Risky Bytes).run t =
      calm ((Transport.takePieces ceiling wait fuel 0 (raw ++ payload) >>=
        fun b => pure (b.drop raw.length)) t) := by
  rw [Action.bind_of_ok (Transport.takePieces_zero ceiling wait fuel (raw ++ payload) t),
    List.drop_left]
  rfl

theorem takePieces_calm (ceiling : Nat) (wait : Option Nat) (raw : Bytes) (fuel size : Nat)
    (payload : Bytes) (t : Transport) :
    (takePieces ceiling wait raw fuel size payload).run t =
      calm ((Transport.takePieces ceiling wait fuel (size - payload.length) (raw ++ payload) >>=
        fun b => pure (b.drop raw.length)) t) := by
  induction fuel generalizing payload t with
  | zero => exact takePieces_done ceiling wait raw 0 payload t
  | succ fuel ih =>
    by_cases hless : payload.length < size
    · have hmissing : size - payload.length ≠ 0 := by omega
      have hsucc := Transport.takePieces_succ ceiling wait fuel (raw ++ payload) t hmissing
      rw [takePieces, if_pos hless, Action.bind_congr_apply hsucc, bind_assoc]
      refine bind_calm (restoring_calm (raw ++ payload) (take_calm _ false wait t))
        fun piece t' hok => ?_
      have hpiece := length_of_restoring_take hok
      have hrest := ih (payload ++ piece) t'
      rw [List.length_append, hpiece, ← Nat.sub_sub, ← List.append_assoc] at hrest
      exact hrest
    · have hnone : size - payload.length = 0 := by omega
      rw [takePieces, if_neg hless, hnone]
      exact takePieces_done ceiling wait raw (fuel + 1) payload t

/-! ## Frames -/

/-- The payload has the octets of the extended header, which are not passed on. -/
theorem takeBody_calm {ceiling : Nat} (hceiling : 0 < ceiling) (wait : Option Nat) {raw : Bytes}
    (hraw : raw.length = frameHeaderSize) (header : FrameHeader) (t : Transport) :
    (takeBody ceiling wait raw header).run t =
      calm ((do
        let skip ← Action.ofExcept header.extendedLength
        let read ← Transport.takePieces ceiling wait header.bodyLength header.bodyLength raw
        return read.drop (frameHeaderSize + skip) : Action Transport Bytes) t) := by
  unfold takeBody
  refine bind_calm (lift_calm _ t) fun skip t₁ hskip => ?_
  have hle : skip ≤ header.bodyLength := by
    cases hlength : header.extendedLength with
    | error f =>
      rw [hlength] at hskip
      cases hskip
    | ok skip' =>
      rw [hlength] at hskip
      cases hskip
      exact extendedLength_le hlength
  have hpieces := takePieces_calm ceiling wait raw header.bodyLength header.bodyLength [] t₁
  rw [List.length_nil, Nat.sub_zero, List.append_nil] at hpieces
  cases hread : Transport.takePieces ceiling wait header.bodyLength header.bodyLength raw t₁ with
  | error halt t₂ =>
    rw [Action.bind_of_error hread] at hpieces ⊢
    exact bind_of_error hpieces
  | ok read t₂ =>
    rw [Action.bind_of_ok hread] at hpieces ⊢
    have hlength := length_of_takePieces hceiling (Nat.le_refl _) hread
    have hadvance : (Attempt.advance skip (read.drop raw.length)).result =
        .ok ((), (read.drop raw.length).drop skip) := by
      unfold Attempt.advance
      rw [if_neg (by rw [List.length_drop]; omega)]
    refine (bind_of_some hpieces).trans ?_
    rw [attempt_of_ok hadvance, List.drop_drop, hraw]
    rfl

/-- Reading a frame does not panic, and gives what `Transport.takeFrame` gives. -/
theorem takeFrame_calm {ceiling : Nat} (hceiling : 0 < ceiling) (wait : Option Nat)
    (t : Transport) : (takeFrame ceiling wait).run t = calm (t.takeFrame ceiling wait) := by
  unfold takeFrame Transport.takeFrame
  refine bind_calm (take_calm frameHeaderSize true wait t) fun raw t₁ htake => ?_
  have hraw : raw.length = frameHeaderSize := by
    have hconserves := Transport.conserves_take frameHeaderSize true wait t
    rw [htake] at hconserves
    exact hconserves.1
  have hheader := header_result raw
  cases hparse : FrameHeader.ofBytes raw with
  | error f =>
    rw [hparse] at hheader
    rw [attempt_of_refused hheader]
    exact bind_of_error rfl
  | ok header =>
    rw [hparse] at hheader
    rw [attempt_of_ok hheader, Action.ofExcept_ok_bind]
    refine (bind_of_some rfl).trans ?_
    dsimp only
    refine bind_calm rfl fun here t₂ _ => ?_
    by_cases hlarge : here.maxFrameSize < header.size
    · rw [if_pos hlarge, if_pos hlarge]
      exact bind_of_error rfl
    rw [if_neg hlarge, if_neg hlarge]
    by_cases hempty : header.isEmpty = true
    · rw [if_pos hempty, if_pos hempty]
      rfl
    rw [if_neg hempty, if_neg hempty]
    by_cases htype : header.type ≠ amqpFrameType
    · rw [if_pos htype, if_pos htype]
      exact bind_of_error rfl
    rw [if_neg htype, if_neg htype]
    have hbody := bind_calm (takeBody_calm hceiling wait hraw header t₂)
      (f := fun body => pure (raw, header, some body))
      (g := fun body => pure (raw, header, some body)) fun _ _ _ => rfl
    simp only [bind_assoc, pure_bind] at hbody
    exact hbody

theorem ne_calm_none (r : EStateM.Result Halt Transport α) (t : Transport) :
    calm r ≠ .ok none t := by
  cases r <;> nofun

end Risky

/-! ## Hostile octets -/

/-- Reading what a peer sends never panics.  For all octets, reading a value or a performative gives
what the decoders give, no operation finds too few octets, and no memory is asked for beyond 65536
elements or the number of octets.  Reading a frame does not panic either, whatever its header says
and the stream brings. -/
theorem reading_never_panics :
    (∀ (b : Bytes) (spare : Nat),
      let attempted := Attempt.valueAt (b.length + 1 + spare) b
      attempted.result ≠ .error .panicked ∧
      attempted.result = (Value.decode b).mapError (fun m => .refused (.malformed m)) ∧
      ∀ n ∈ attempted.requests, n ≤ max 65536 b.length) ∧
    (∀ (b : Bytes) (spare : Nat),
      let attempted := Attempt.performativeAt (b.length + 1 + spare) b
      attempted.result ≠ .error .panicked ∧
      attempted.result.map Prod.fst = (Performative.decode b).mapError .refused ∧
      ∀ n ∈ attempted.requests, n ≤ max 65536 b.length) ∧
    (∀ (wait : Option Nat) (t : Transport),
      let result := (Risky.takeFrame Transport.readCeiling wait).run t
      (∀ t', result ≠ .ok none t') ∧
      result = Risky.calm (t.takeFrame Transport.readCeiling wait)) := by
  have hdepth (b : Bytes) (spare : Nat) : b.length < b.length + 1 + spare := by omega
  have hceiling : 0 < Transport.readCeiling := by decide
  refine ⟨fun b spare => ?_, fun b spare => ?_, fun wait t => ?_⟩
  · have h := Attempt.serves_decode (hdepth b spare)
    exact ⟨h.ne_panicked, h.result_eq, h.requests_le⟩
  · have h := Attempt.follows_performativeAt (hdepth b spare)
    refine ⟨h.ne_panicked, ?_, h.requests_le⟩
    rw [h.result_eq, Attempt.decode_eq_bodyReader]
    cases Attempt.bodyReader b <;> rfl
  · have h := Risky.takeFrame_calm hceiling wait t
    refine ⟨fun t' => ?_, h⟩
    rw [h]
    exact Risky.ne_calm_none _ t'

/-- Three nulls in an array of four octets: memory is asked for once, for all of them. -/
example : (Attempt.valueAt 5 [0xe0, 0x02, 0x03, 0x40]).requests = [3] := by decide

end Amqp
