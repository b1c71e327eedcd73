import Amqp.Fault

/-!
# Byte streams

A byte stream is given by what its peer does: the events that reads and writes meet, one after
another.  Waiting moves a clock.  A read or a write that would still be waiting when the observed
time is over has no result; it stalls.  `fill` is a run of reads that collects a number of octets,
and `pour` is a run of writes that delivers all of its data.
-/

namespace Amqp

/-- What a read meets. -/
inductive ReadEvent where
  /-- Octets that have arrived.  None at all tell that the peer has closed the stream. -/
  | octets (b : Bytes)
  | fault (cause : StreamFault)
  /-- The end of the stream, for good. -/
  | ended
  /-- Nothing until some time after the first read that meets the event. -/
  | delay (milliseconds : Nat)
  /-- Nothing until an instant. -/
  | quietUntil (instant : Nat)
deriving DecidableEq, Repr

/-- What a write meets. -/
inductive WriteEvent where
  /-- Takes at most so many octets of one write. -/
  | accept (count : Nat)
  | fault (cause : StreamFault)
  /-- Takes nothing until an instant. -/
  | quietUntil (instant : Nat)
  /-- Takes nothing, for good. -/
  | pending
deriving DecidableEq, Repr

/-- A byte stream: the time, the end of the observed time, what reads and writes are going to meet,
and the pieces that the stream has taken, the latest first. -/
structure Stream where
  now : Nat := 0
  horizon : Nat
  reads : List ReadEvent := []
  writes : List WriteEvent := []
  taken : List Bytes := []
  isShutDown : Bool := false

/-- All octets that the stream has taken. -/
def Stream.written (s : Stream) : Bytes := s.taken.reverse.flatten

/-- How a run of reads or writes ends.  `none` in place of a fault says that it stalls. -/
abbrev StreamResult := Except (Option Fault) Unit

/-- How a wait in vain up to a deadline ends, and when. -/
def expiry (horizon : Nat) (deadline : Option Nat) (now : Nat) : StreamResult × Nat :=
  match deadline with
  | some instant =>
    if instant ≤ horizon then (.error (some .timeout), instant) else (.error none, now)
  | none => (.error none, now)

/-- A wait in vain ends at its deadline, if that is in the observed time, and else it stalls. -/
theorem expiry_cases (horizon : Nat) (deadline : Option Nat) (now : Nat) :
    (∃ limit, deadline = some limit ∧ limit ≤ horizon ∧
      expiry horizon deadline now = (.error (some .timeout), limit)) ∨
      expiry horizon deadline now = (.error none, now) := by
  cases deadline with
  | none => exact Or.inr rfl
  | some limit =>
    by_cases h : limit ≤ horizon
    · exact Or.inl ⟨limit, rfl, h, if_pos h⟩
    · exact Or.inr (if_neg h)

/-! ## Reading -/

/-- How long a single read may wait, and whether a run of reads that is interrupted a second time
before its first octet counts as timed out. -/
structure ReadPolicy where
  timeout : Option Nat
  toleratesInterrupt : Bool
deriving DecidableEq, Repr

/-- What a run of reads leaves: the octets collected, the time, and the events not met yet. -/
structure Filled where
  result : StreamResult
  octets : Bytes
  now : Nat
  rest : List ReadEvent

/-- The deadline of a read that begins at `now`. -/
def ReadPolicy.deadline (o : ReadPolicy) (now : Nat) : Option Nat := o.timeout.map (now + ·)

/-- Waits in vain for further octets, up to the deadline. -/
def expire (horizon : Nat) (deadline : Option Nat) (octets : Bytes) (now : Nat)
    (rest : List ReadEvent) : Filled :=
  let (result, now) := expiry horizon deadline now
  ⟨result, octets, now, rest⟩

/-- Reads until `missing` further octets have arrived.  Each read takes what one event holds, but no
more than is missing, and has a deadline of its own.  An event at the deadline is in time. -/
def fill (o : ReadPolicy) (horizon missing : Nat) (deadline : Option Nat) (interrupted : Bool)
    (octets : Bytes) (now : Nat) : List ReadEvent → Filled
  | [] => expire horizon deadline octets now []
  | .octets b :: rest =>
    if b.isEmpty then ⟨.error (some (.closed .endOfStream)), octets, now, rest⟩
    else if missing < b.length then
      ⟨.ok (), octets ++ b.take missing, now, .octets (b.drop missing) :: rest⟩
    else if missing = b.length then ⟨.ok (), octets ++ b, now, rest⟩
    else
      fill o horizon (missing - b.length) (o.deadline now) interrupted (octets ++ b) now rest
  | .fault cause :: rest =>
    match cause with
    | .interrupted | .wouldBlock =>
      if o.toleratesInterrupt && octets.isEmpty then
        if interrupted then ⟨.error (some .timeout), octets, now, rest⟩
        else fill o horizon missing (o.deadline now) true octets now rest
      else fill o horizon missing (o.deadline now) interrupted octets now rest
    | .timedOut => ⟨.error (some .timeout), octets, now, rest⟩
    | cause => ⟨.error (some (.stream cause)), octets, now, rest⟩
  | .ended :: rest => ⟨.error (some (.closed .endOfStream)), octets, now, .ended :: rest⟩
  | .delay milliseconds :: rest =>
    let instant := now + milliseconds
    if deadline.any fun limit => limit < instant then
      expire horizon deadline octets now (.quietUntil instant :: rest)
    else if instant ≤ horizon then
      fill o horizon missing deadline interrupted octets instant rest
    else ⟨.error none, octets, now, .quietUntil instant :: rest⟩
  | .quietUntil instant :: rest =>
    if instant ≤ now then fill o horizon missing deadline interrupted octets now rest
    else if deadline.any fun limit => limit < instant then
      expire horizon deadline octets now (.quietUntil instant :: rest)
    else if instant ≤ horizon then
      fill o horizon missing deadline interrupted octets instant rest
    else ⟨.error none, octets, now, .quietUntil instant :: rest⟩

/-! ## Writing -/

/-- What a run of writes leaves: the pieces taken, the latest first, the time, and the events not
met yet. -/
structure Poured where
  result : StreamResult
  taken : List Bytes
  now : Nat
  rest : List WriteEvent

/-- Waits in vain for the stream to take more, up to the deadline. -/
def giveUp (horizon : Nat) (deadline : Option Nat) (taken : List Bytes) (now : Nat)
    (rest : List WriteEvent) : Poured :=
  let (result, now) := expiry horizon deadline now
  ⟨result, taken, now, rest⟩

/-- Writes all data before a deadline.  It goes on after a write that takes a part of the data, and
the first fault ends it, whatever its cause.  An event at the deadline is in time. -/
def pour (horizon : Nat) (deadline : Option Nat) (taken : List Bytes) (now : Nat) :
    Bytes → List WriteEvent → Poured
  | data, [] => ⟨.ok (), data :: taken, now, []⟩
  | data, event :: rest =>
    if data.isEmpty then ⟨.ok (), taken, now, event :: rest⟩
    else
      match event with
      | .accept count =>
        if count = 0 then ⟨.error (some (.stream .writeZero)), taken, now, rest⟩
        else pour horizon deadline (data.take count :: taken) now (data.drop count) rest
      | .fault cause => ⟨.error (some (.stream cause)), taken, now, rest⟩
      | .quietUntil instant =>
        if instant ≤ now then pour horizon deadline taken now data rest
        else if deadline.any fun limit => limit < instant then
          giveUp horizon deadline taken now (.quietUntil instant :: rest)
        else if instant ≤ horizon then pour horizon deadline taken instant data rest
        else ⟨.error none, taken, now, .quietUntil instant :: rest⟩
      | .pending => giveUp horizon deadline taken now (.pending :: rest)

end Amqp
