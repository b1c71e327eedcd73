import Amqp.Proofs.Transport.Pieces
import Amqp.Proofs.Transport.Receiving
import Amqp.Proofs.Transport.Waiting

/-!
# Octets that reads put back

Whatever a stream brings, octets, pauses, faults or its end, a read of a number of octets that fails
puts back all octets that it has taken (`takeSpec_take`).  A frame is read behind its header, which
can refuse it (`FrameHeader.admission`).  `FrameRead` says all that reading a frame does to the
octets before a transport: only a header that refuses its frame is taken and not put back
(`frameRead_takeFrame`).  So a call of `receive` that gives nothing leaves the octets as they were,
and one that gives a frame has used some of them (`drains_receive`).
-/

namespace Amqp

/-! ## Headers -/

/-- What a header has to follow it: nothing since the frame is refused, nothing since the frame is
empty, or a body behind an extended header of some length. -/
inductive Admission where
  | refused (f : Fault)
  | empty
  | full (skip : Nat)

namespace FrameHeader

variable {limit : UInt32} {h : FrameHeader}

/-- What may follow a header, given the greatest frame that is accepted. -/
def admission (limit : UInt32) (h : FrameHeader) : Admission :=
  if limit < h.size then .refused (.malformed (.frameTooLarge h.size h.channel limit))
  else if h.isEmpty then .empty
  else if h.type ≠ amqpFrameType then
    .refused (.malformed (.unsupportedFrameType h.type h.channel))
  else
    match h.extendedLength with
    | .error f => .refused f
    | .ok skip => .full skip

theorem admission_of_lt (hsize : limit < h.size) :
    h.admission limit = .refused (.malformed (.frameTooLarge h.size h.channel limit)) :=
  if_pos hsize

/-- A refusal blames the peer. -/
theorem malformed_of_refused {f : Fault} (hrefused : h.admission limit = .refused f) :
    ∃ cause, f = .malformed cause := by
  unfold admission extendedLength at hrefused
  dsimp only at hrefused
  split_ifs at hrefused <;> cases hrefused <;> exact ⟨_, rfl⟩

/-- A frame with a body is longer than its header, and not longer than what is accepted. -/
theorem size_of_full {skip : Nat} (hfull : h.admission limit = .full skip) :
    frameHeaderSize < h.size.toNat ∧ h.size.toNat ≤ limit.toNat := by
  unfold admission extendedLength at hfull
  dsimp only at hfull
  split_ifs at hfull with hlimit hempty htype hoffset
  rw [UInt32.lt_iff_toNat_lt] at hlimit
  have hne : h.size.toNat ≠ frameHeaderSize := by
    intro hsize
    refine hempty ?_
    rw [isEmpty, beq_iff_eq.2 hsize, Bool.or_true]
  omega

/-- Octets behind a header do not change it. -/
theorem ofBytes_append {raw : Bytes} (hraw : ofBytes raw = .ok h) (more : Bytes) :
    ofBytes (raw ++ more) = .ok h := by
  unfold ofBytes at hraw
  split at hraw
  · exact hraw
  · cases hraw

theorem exists_ofBytes {raw : Bytes} (hraw : raw.length = frameHeaderSize) :
    ∃ header, ofBytes raw = .ok header := by
  match raw, hraw with
  | [_, _, _, _, _, _, _, _], _ => exact ⟨_, rfl⟩

end FrameHeader

/-- Whether a read has stopped since the octets that it has read are malformed. -/
def Halt.IsRefusal (halt : Halt) : Prop := ∃ cause, halt = .fault (.malformed cause)

/-! ## Runs of reads -/

/-- How a run of reads goes on that has some octets and misses others: it meets the last of those
that were missing, it stops without having judged any of them, it passes over an event without
octets, or it takes all octets of an event and misses fewer. -/
inductive FillRun : Nat → Bytes → List ReadEvent → Filled → Prop
  | filled {missing : Nat} {octets : Bytes} {reads : List ReadEvent} {b : Bytes} (now : Nat)
      {rest : List ReadEvent} (hlength : b.length = missing)
      (harrives : b ++ arriving rest = arriving reads) :
      FillRun missing octets reads ⟨.ok (), octets ++ b, now, rest⟩
  | stopped {missing : Nat} {octets : Bytes} {reads rest : List ReadEvent} {cause : Option Fault}
      (now : Nat) (hrest : arriving rest = arriving reads)
      (hcause : ∀ malformation, cause ≠ some (.malformed malformation) := by simp) :
      FillRun missing octets reads ⟨.error cause, octets, now, rest⟩
  | passed {missing : Nat} {octets : Bytes} {e : ReadEvent} {reads : List ReadEvent} {f : Filled}
      (he : e.content = []) (h : FillRun missing octets reads f) :
      FillRun missing octets (e :: reads) f
  | more {missing : Nat} {octets b : Bytes} {reads : List ReadEvent} {f : Filled}
      (hless : b.length < missing) (h : FillRun (missing - b.length) (octets ++ b) reads f) :
      FillRun missing octets (.octets b :: reads) f

theorem fillRun_expire {missing : Nat} {octets : Bytes} {reads rest : List ReadEvent}
    (hrest : arriving rest = arriving reads) (horizon : Nat) (deadline : Option Nat) (now : Nat) :
    FillRun missing octets reads (expire horizon deadline octets now rest) := by
  unfold expire
  rcases expiry_cases horizon deadline now with ⟨limit, -, -, h⟩ | h
  · rw [h]
    exact .stopped limit hrest
  · rw [h]
    exact .stopped now hrest

/-- Every run of reads. -/
theorem fillRun_fill (o : ReadPolicy) (horizon missing : Nat) (deadline : Option Nat)
    (interrupted : Bool) (octets : Bytes) (now : Nat) (reads : List ReadEvent) :
    FillRun missing octets reads
      (fill o horizon missing deadline interrupted octets now reads) := by
  induction reads generalizing missing deadline interrupted octets now with
  | nil => exact fillRun_expire rfl horizon deadline now
  | cons e reads ih =>
    cases e with
    | octets b =>
      rw [fill]
      split_ifs with hnone hless hequal
      · obtain rfl : b = [] := List.isEmpty_iff.1 hnone
        exact .stopped now rfl
      · refine .filled now (List.length_take_of_le (Nat.le_of_lt hless)) ?_
        rw [arriving_cons, arriving_cons, ReadEvent.content, ReadEvent.content,
          ← List.append_assoc, List.take_append_drop]
      · exact .filled now hequal.symm rfl
      · exact .more (by omega) (ih _ _ _ _ _)
    | fault cause =>
      rw [fill.eq_def]
      cases cause with
      | interrupted | wouldBlock =>
        dsimp only
        split_ifs
        · exact .stopped now rfl
        · exact .passed rfl (ih _ _ _ _ _)
        · exact .passed rfl (ih _ _ _ _ _)
      | _ => exact .stopped now rfl
    | ended =>
      rw [fill]
      exact .stopped now rfl
    | delay milliseconds =>
      rw [fill]
      split_ifs
      · exact fillRun_expire (by rfl) horizon deadline now
      · exact .passed rfl (ih _ _ _ _ _)
      · exact .stopped now rfl
    | quietUntil instant =>
      rw [fill]
      split_ifs
      · exact .passed rfl (ih _ _ _ _ _)
      · exact fillRun_expire rfl horizon deadline now
      · exact .passed rfl (ih _ _ _ _ _)
      · exact .stopped now rfl

/-- What a run of reads makes of the octets to come: it loses none of them, and has as many as were
missing if it succeeds. -/
structure Collects (missing : Nat) (octets : Bytes) (reads : List ReadEvent) (f : Filled) :
    Prop where
  append_eq : f.octets ++ arriving f.rest = octets ++ arriving reads
  length_eq : f.result = .ok () → f.octets.length = octets.length + missing

theorem FillRun.collects {missing : Nat} {octets : Bytes} {reads : List ReadEvent} {f : Filled}
    (h : FillRun missing octets reads f) : Collects missing octets reads f := by
  induction h with
  | filled now hlength harrives =>
    exact ⟨by rw [List.append_assoc, harrives], fun _ => by rw [List.length_append, hlength]⟩
  | stopped now hrest hcause => exact ⟨congrArg (_ ++ ·) hrest, nofun⟩
  | passed he _ ih => exact ⟨by rw [ih.append_eq, arriving_cons, he, List.nil_append], ih.length_eq⟩
  | more hless _ ih =>
    refine ⟨?_, fun hok => ?_⟩
    · rw [ih.append_eq, arriving_cons, ReadEvent.content, List.append_assoc]
    · rw [ih.length_eq hok, List.length_append]
      omega

/-- What a run of reads has, and misses if it fails: no fewer octets than before, but not all that
were missing.  It does not judge them. -/
structure Gains (missing : Nat) (octets : Bytes) (f : Filled) : Prop where
  le_length : octets.length ≤ f.octets.length
  length_lt : f.result ≠ .ok () → f.octets.length < octets.length + missing
  not_malformed (malformation : Malformation) :
    f.result ≠ .error (some (.malformed malformation))

theorem FillRun.gains {missing : Nat} {octets : Bytes} {reads : List ReadEvent} {f : Filled}
    (h : FillRun missing octets reads f) (hmissing : 0 < missing) : Gains missing octets f := by
  induction h with
  | filled now hlength harrives =>
    refine ⟨?_, fun hfails => absurd rfl hfails, fun _ => nofun⟩
    rw [List.length_append]
    exact Nat.le_add_right _ _
  | stopped now hrest hcause =>
    refine ⟨Nat.le_refl _, fun _ => Nat.lt_add_of_pos_right hmissing, fun malformation h => ?_⟩
    exact hcause malformation (Except.error.inj h)
  | passed _ _ ih => exact ih hmissing
  | more hless _ ih =>
    obtain ⟨hle, hlt, hcause⟩ := ih (Nat.sub_pos_of_lt hless)
    rw [List.length_append] at hle hlt
    exact ⟨by omega, fun hfails => by have := hlt hfails; omega, hcause⟩

namespace Transport

variable {α : Type} {before : Bytes} {P : α → Transport → Prop} {t t' t₁ t₂ : Transport}
  {wait : Option Nat}

/-! ## Reads -/

/-- What taking octets from the front makes of a transport. -/
structure Took (read : Bytes) (t t' : Transport) : Prop where
  incoming_eq : read ++ t'.incoming = t.incoming
  buffer_eq : t'.buffer = t.buffer.drop read.length
  maxFrameSize : t'.maxFrameSize = t.maxFrameSize

/-- What a read that fails makes of a transport when it puts back all octets that it has taken. -/
structure PutBack (t t' : Transport) : Prop where
  incoming_eq : t'.incoming = t.incoming
  length_le : t.buffer.length ≤ t'.buffer.length
  maxFrameSize : t'.maxFrameSize = t.maxFrameSize

theorem Took.trans {front back : Bytes} (h : Took front t t₁) (h' : Took back t₁ t₂) :
    Took (front ++ back) t t₂ where
  incoming_eq := by rw [List.append_assoc, h'.incoming_eq, h.incoming_eq]
  buffer_eq := by rw [h'.buffer_eq, h.buffer_eq, List.drop_drop, List.length_append]
  maxFrameSize := h'.maxFrameSize.trans h.maxFrameSize

theorem Took.length_lt {read : Bytes} (h : Took read t t') (hread : 0 < read.length) :
    t'.incoming.length < t.incoming.length := by
  rw [← h.incoming_eq, List.length_append]
  exact Nat.lt_add_of_pos_left hread

/-- What a later read puts back goes back behind what was taken before it. -/
theorem Took.putBack {read : Bytes} (h : Took read t t₁) (h' : PutBack t₁ t₂) :
    PutBack t { t₂ with buffer := read ++ t₂.buffer } where
  incoming_eq := by
    rw [← h.incoming_eq, ← h'.incoming_eq]
    exact List.append_assoc _ _ _
  length_le := by
    have hlength := h'.length_le
    rw [h.buffer_eq, List.length_drop] at hlength
    change t.buffer.length ≤ (read ++ t₂.buffer).length
    rw [List.length_append]
    omega
  maxFrameSize := h'.maxFrameSize.trans h.maxFrameSize

/-- What is put back stands behind what has been in the buffer. -/
theorem PutBack.exists_read (h : PutBack t t') :
    ∃ read, t'.buffer = t.buffer ++ read ∧
      arriving t.stream.reads = read ++ arriving t'.stream.reads := by
  have hbefore : t.buffer <+: t.incoming := List.prefix_append _ _
  have hafter : t'.buffer <+: t.incoming := h.incoming_eq ▸ List.prefix_append _ _
  obtain ⟨read, hread⟩ := List.prefix_of_prefix_length_le hbefore hafter h.length_le
  refine ⟨read, hread.symm, ?_⟩
  have hincoming := h.incoming_eq
  rw [incoming, incoming, ← hread, List.append_assoc] at hincoming
  exact (List.append_cancel_left hincoming).symm

/-- How a read of a number of octets comes out. -/
inductive TakeSpec (size : Nat) (t : Transport) : EStateM.Result Halt Transport Bytes → Prop
  | done {b : Bytes} {t' : Transport} (hlength : b.length = size) (htook : Took b t t') :
      TakeSpec size t (.ok b t')
  | cut {halt : Halt} {t' : Transport} (hhalt : ¬halt.IsRefusal) (hback : PutBack t t')
      (hshort : t'.buffer.length < size) : TakeSpec size t (.error halt t')

theorem not_isRefusal_haltOf {missing : Nat} {octets : Bytes} {cause : Option Fault} {now : Nat}
    {rest : List ReadEvent} {read : Bytes}
    (h : Gains missing octets ⟨.error cause, read, now, rest⟩) : ¬(haltOf cause).IsRefusal := by
  rintro ⟨malformation, hhalt⟩
  cases cause with
  | none => cases hhalt
  | some f =>
    cases hhalt
    exact h.not_malformed malformation rfl

theorem fillRun_filled (size : Nat) (initial : Bool) (wait : Option Nat) (t : Transport) :
    FillRun (size - t.buffer.length) t.buffer t.stream.reads (t.filled size initial wait) :=
  fillRun_fill _ _ _ _ _ _ _ _

theorem takeSpec_take (size : Nat) (initial : Bool) (wait : Option Nat) (t : Transport) :
    TakeSpec size t (take size initial wait t) := by
  rcases Nat.lt_or_ge t.buffer.length size with hshort | hbuffered
  · cases hopen : t.isOpen with
    | false =>
      rw [take_of_not_isOpen hshort hopen]
      exact .cut (fun ⟨_, h⟩ => by cases h) ⟨rfl, Nat.le_refl _, rfl⟩ hshort
    | true =>
      rw [take_of_isOpen hshort hopen]
      have hcollects := (fillRun_filled size initial wait t).collects
      have hgains := (fillRun_filled size initial wait t).gains (Nat.sub_pos_of_lt hshort)
      generalize t.filled size initial wait = f at hcollects hgains ⊢
      obtain ⟨result, octets, now, rest⟩ := f
      cases result with
      | ok _ =>
        have hsum : octets.length = t.buffer.length + (size - t.buffer.length) :=
          hcollects.length_eq rfl
        have hlength : octets.length = size := by omega
        have hdrained : t.buffer.drop octets.length = [] := by
          rw [hlength]
          exact List.drop_of_length_le (Nat.le_of_lt hshort)
        exact .done hlength ⟨hcollects.append_eq, hdrained.symm, rfl⟩
      | error cause =>
        have hlength : octets.length < t.buffer.length + (size - t.buffer.length) :=
          hgains.length_lt nofun
        refine .cut (not_isRefusal_haltOf hgains) ⟨hcollects.append_eq, hgains.le_length, rfl⟩ ?_
        change octets.length < size
        omega
  · rw [take_of_buffered hbuffered]
    have hlength : (t.buffer.take size).length = size := List.length_take_of_le hbuffered
    refine .done hlength ⟨?_, by rw [hlength], rfl⟩
    rw [incoming, incoming, ← List.append_assoc, List.take_append_drop]

/-- What a read does that puts back all octets when it fails. -/
def Conserves (before : Bytes) (P : α → Transport → Prop) :
    EStateM.Result Halt Transport α → Prop
  | .ok a t' => P a t'
  | .error _ t' => t'.incoming = before

/-- A read of a number of octets takes them from the front, or puts them back. -/
theorem conserves_take (size : Nat) (initial : Bool) (wait : Option Nat) (t : Transport) :
    Conserves t.incoming (fun b t' => b.length = size ∧ b ++ t'.incoming = t.incoming)
      (take size initial wait t) := by
  have hspec := takeSpec_take size initial wait t
  generalize take size initial wait t = r at hspec
  cases hspec with
  | done hlength htook => exact ⟨hlength, htook.incoming_eq⟩
  | cut hhalt hback hshort => exact hback.incoming_eq

theorem Conserves.restoring {x : Action Transport α} (h : Conserves before P (x t)) (read : Bytes) :
    Conserves (read ++ before) P (restoring read x t) := by
  unfold Transport.restoring
  match x t, h with
  | .ok _ _, h => exact h
  | .error _ t', h =>
    change (read ++ t'.buffer) ++ arriving t'.stream.reads = read ++ before
    rw [List.append_assoc]
    exact congrArg (read ++ ·) h

/-! ## Frames -/

/-- Reads what may follow a header. -/
def takeAdmitted (ceiling : Nat) (wait : Option Nat) (raw : Bytes) (header : FrameHeader) :
    Admission → Action Transport (Bytes × FrameHeader × Option Bytes)
  | .refused f => Action.raise f
  | .empty => pure (raw, header, none)
  | .full skip => do
    let read ← takePieces ceiling wait header.bodyLength header.bodyLength raw
    return (raw, header, some (read.drop (frameHeaderSize + skip)))

theorem takeBehind_eq_takeAdmitted (ceiling : Nat) (wait : Option Nat) {raw : Bytes}
    {header : FrameHeader} (hraw : FrameHeader.ofBytes raw = .ok header) (t : Transport) :
    takeBehind ceiling wait raw t =
      takeAdmitted ceiling wait raw header (header.admission t.maxFrameSize) t := by
  unfold takeBehind FrameHeader.admission
  rw [hraw, Action.ofExcept_ok_bind, Action.get_bind]
  dsimp only
  by_cases hlimit : t.maxFrameSize < header.size
  · rw [if_pos hlimit, if_pos hlimit]
    rfl
  rw [if_neg hlimit, if_neg hlimit]
  by_cases hempty : header.isEmpty = true
  · rw [if_pos hempty, if_pos hempty]
    rfl
  rw [if_neg hempty, if_neg hempty]
  by_cases htype : header.type ≠ amqpFrameType
  · rw [if_pos htype, if_pos htype]
    rfl
  rw [if_neg htype, if_neg htype]
  cases header.extendedLength with
  | error f => rfl
  | ok skip => rfl

/-- Whether a buffer holds a part of one frame, which its header does not refuse as soon as it is
complete. -/
def IsFront (limit : UInt32) (b : Bytes) : Prop :=
  b.length < frameHeaderSize ∨
    ∃ header skip, FrameHeader.ofBytes b = .ok header ∧ header.admission limit = .full skip ∧
      b.length < header.size.toNat

/-- How reading a frame comes out. -/
inductive FrameRead (t : Transport) :
    EStateM.Result Halt Transport (Bytes × FrameHeader × Option Bytes) → Prop
  /-- The read fails, and puts back a part of the frame. -/
  | cut {halt : Halt} {t' : Transport} (hhalt : ¬halt.IsRefusal) (hback : PutBack t t')
      (hfront : IsFront t.maxFrameSize t'.buffer) : FrameRead t (.error halt t')
  /-- The header refuses the frame. -/
  | refused {raw : Bytes} {header : FrameHeader} {f : Fault} {t' : Transport}
      (hlength : raw.length = frameHeaderSize) (hraw : FrameHeader.ofBytes raw = .ok header)
      (hrefused : header.admission t.maxFrameSize = .refused f) (htook : Took raw t t') :
      FrameRead t (.error (.fault f) t')
  /-- The frame is only its header. -/
  | empty {raw : Bytes} {header : FrameHeader} {t' : Transport}
      (hlength : raw.length = frameHeaderSize) (hraw : FrameHeader.ofBytes raw = .ok header)
      (hempty : header.admission t.maxFrameSize = .empty) (htook : Took raw t t') :
      FrameRead t (.ok (raw, header, none) t')
  /-- The frame has a body. -/
  | full {raw payload : Bytes} {header : FrameHeader} {skip : Nat} {t' : Transport}
      (hlength : raw.length = frameHeaderSize) (hraw : FrameHeader.ofBytes raw = .ok header)
      (hfull : header.admission t.maxFrameSize = .full skip)
      (hsize : (raw ++ payload).length = header.size.toNat) (htook : Took (raw ++ payload) t t') :
      FrameRead t (.ok (raw, header, some ((raw ++ payload).drop (frameHeaderSize + skip))) t')

/-- Every read of a frame. -/
theorem frameRead_takeFrame {ceiling : Nat} (hceiling : 0 < ceiling) (wait : Option Nat)
    (t : Transport) : FrameRead t (takeFrame ceiling wait t) := by
  rw [takeFrame_eq]
  have hhead := takeSpec_take frameHeaderSize true wait t
  generalize hresult : take frameHeaderSize true wait t = r at hhead
  cases hhead with
  | cut hhalt hback hshort =>
    rw [Action.bind_of_error hresult]
    exact .cut hhalt hback (Or.inl hshort)
  | @done raw t₁ hlength htook =>
    obtain ⟨header, hraw⟩ := FrameHeader.exists_ofBytes hlength
    rw [Action.bind_of_ok hresult, takeBehind_eq_takeAdmitted ceiling wait hraw, htook.maxFrameSize]
    cases hadmission : header.admission t.maxFrameSize with
    | refused f => exact .refused hlength hraw hadmission htook
    | empty => exact .empty hlength hraw hadmission htook
    | full skip =>
      have hsize : frameHeaderSize + header.bodyLength = header.size.toNat := by
        have hless := (FrameHeader.size_of_full hadmission).1
        unfold FrameHeader.bodyLength
        omega
      rw [takeAdmitted]
      -- However many pieces there are, the body comes as if it was read at once.
      have hwhole := takePieces_eq hceiling wait (Nat.le_refl header.bodyLength) raw t₁
      have hbody := takeSpec_take header.bodyLength false wait t₁
      generalize hpayload : take header.bodyLength false wait t₁ = r at hbody
      cases hbody with
      | @cut halt t₂ hhalt hback hshort =>
        have hfailed := hwhole.trans (Action.bind_of_error (restoring_of_error hpayload raw))
        rw [Action.bind_of_error hfailed]
        -- The header goes back in front of what there is of the payload.
        refine .cut hhalt (htook.putBack hback) (Or.inr ⟨header, skip, ?_, hadmission, ?_⟩)
        · exact FrameHeader.ofBytes_append hraw _
        · change (raw ++ t₂.buffer).length < _
          rw [List.length_append]
          omega
      | @done payload t₂ hpayloadLength htook' =>
        have hdone := hwhole.trans (Action.bind_of_ok (restoring_of_ok hpayload raw))
        rw [Action.bind_of_ok hdone]
        refine .full hlength hraw hadmission ?_ (htook.trans htook')
        rw [List.length_append, hlength, hpayloadLength, hsize]

/-! ## Receiving -/

/-- What reading a frame does to the octets before a transport: it uses some of them, or it has run
out of time and leaves them all. -/
def Drains (t : Transport) : EStateM.Result Halt Transport α → Prop
  | .ok _ t' => t'.incoming.length < t.incoming.length
  | .error halt t' => halt = .fault .timeout → t'.incoming = t.incoming

theorem drains_takeFrame {ceiling : Nat} (hceiling : 0 < ceiling) (wait : Option Nat)
    (t : Transport) : Drains t (takeFrame ceiling wait t) := by
  have hread := frameRead_takeFrame hceiling wait t
  generalize takeFrame ceiling wait t = r at hread
  cases hread with
  | cut hhalt hback hfront => exact fun _ => hback.incoming_eq
  | refused hlength hraw hrefused htook =>
    obtain ⟨cause, rfl⟩ := FrameHeader.malformed_of_refused hrefused
    exact fun htimeout => absurd (Halt.fault.inj htimeout) (by simp)
  | empty hlength hraw hempty htook =>
    refine htook.length_lt ?_
    rw [hlength]
    decide
  | full hlength hraw hfull hsize htook =>
    refine htook.length_lt ?_
    rw [hsize]
    exact Nat.zero_lt_of_lt (FrameHeader.size_of_full hfull).1

theorem Drains.watched {x : Action Transport α} (h : Drains t (x t)) :
    Drains t (watched x t) := by
  unfold Transport.watched
  match x t, h with
  | .ok _ _, h => exact h
  | .error .stalled _, h => exact h
  | .error (.fault f) t', h =>
    dsimp only
    split_ifs <;> exact h

theorem drains_readRaw (wait : Option Nat) (t : Transport) : Drains t (readRaw wait t) := by
  have hframe : Drains t (watched (takeFrame readCeiling wait) t) :=
    (drains_takeFrame (by decide) wait t).watched
  unfold readRaw
  cases hresult : watched (takeFrame readCeiling wait) t with
  | error halt t' =>
    rw [hresult] at hframe
    rw [Action.bind_of_error hresult]
    exact hframe
  | ok r t' =>
    rw [hresult] at hframe
    rw [Action.bind_of_ok hresult]
    exact hframe

/-- Receiving leaves the octets before a transport if it gives nothing, and uses some of them if it
gives a frame. -/
theorem drains_receive {wait : Option Nat} {got : Option (UInt16 × Frame)} {t' : Transport}
    (h : receive wait t = .ok got t') :
    (got = none → t'.incoming = t.incoming) ∧
      (got ≠ none → t'.incoming.length < t.incoming.length) := by
  have hraw := drains_readRaw wait t
  unfold receive at h
  match hresult : readRaw wait t, hraw with
  | .ok (raw, channel, body) t₁, hless =>
    rw [hresult] at h
    dsimp only at h
    cases hdecode : decodeBody raw body with
    | error f =>
      rw [hdecode] at h
      cases h
    | ok frame =>
      rw [hdecode] at h
      cases h
      exact ⟨nofun, fun _ => hless⟩
  | .error (.fault f) t₁, htimeout =>
    rw [hresult] at h
    cases f with
    | timeout =>
      cases h
      exact ⟨fun _ => htimeout rfl, fun hne => absurd rfl hne⟩
    | _ => cases h
  | .error .stalled t₁, _ =>
    rw [hresult] at h
    cases h

end Transport

end Amqp
