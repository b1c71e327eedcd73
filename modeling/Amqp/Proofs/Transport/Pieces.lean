import Amqp.Proofs.Action
import Amqp.Proofs.Transport.Reading

/-!
# Payloads read in pieces

A payload is read in pieces of at most some ceiling, each of them by a run of reads of its own, and
what the pieces before have given stands outside of the buffer until the last one is read.  None of
this can be told from outside: a run of reads for a number of octets is a run for the first of them
and then one for the others (`continues_fill`), so a read is one in two pieces (`take_add`), and a
read in pieces of any size is one read of the whole (`takePieces_eq`).  It gives the same, and it
leaves the same octets in the buffer, the same events and the same time.
-/

namespace Amqp

/-! ## Runs of reads one after another -/

/-- What a run of reads leaves, with further octets in front. -/
def Filled.behind (front : Bytes) (f : Filled) : Filled := { f with octets := front ++ f.octets }

theorem expire_behind (front octets : Bytes) (horizon : Nat) (deadline : Option Nat) (now : Nat)
    (rest : List ReadEvent) :
    expire horizon deadline (front ++ octets) now rest =
      (expire horizon deadline octets now rest).behind front := rfl

variable {o : ReadPolicy}

/-- A run that passes over all interruptions does not depend on the octets in front. -/
theorem fill_behind (ho : o.toleratesInterrupt = false) (front octets : Bytes)
    (horizon missing : Nat) (deadline : Option Nat) (now : Nat) (reads : List ReadEvent) :
    fill o horizon missing deadline false (front ++ octets) now reads =
      (fill o horizon missing deadline false octets now reads).behind front := by
  have hpassed (b : Bytes) : ¬(o.toleratesInterrupt && b.isEmpty) = true := by
    rw [ho]
    exact Bool.false_ne_true
  induction reads generalizing missing deadline octets now with
  | nil =>
    rw [fill, fill]
    exact expire_behind front octets horizon deadline now []
  | cons e reads ih =>
    cases e with
    | octets b =>
      rw [fill, fill]
      split_ifs
      · rfl
      · rw [List.append_assoc]
        rfl
      · rw [List.append_assoc]
        rfl
      · rw [List.append_assoc]
        exact ih (octets ++ b) _ _ _
    | fault cause =>
      rw [fill.eq_def, fill.eq_def _ _ _ _ _ octets]
      cases cause with
      | interrupted | wouldBlock =>
        dsimp only
        rw [if_neg (hpassed _), if_neg (hpassed _)]
        exact ih octets _ _ _
      | _ => rfl
    | ended =>
      rw [fill, fill]
      rfl
    | delay milliseconds =>
      rw [fill, fill]
      split_ifs
      · exact expire_behind front octets horizon deadline now _
      · exact ih octets _ _ _
      · rfl
    | quietUntil instant =>
      rw [fill, fill]
      split_ifs
      · exact ih octets _ _ _
      · exact expire_behind front octets horizon deadline now _
      · exact ih octets _ _ _
      · rfl

/-- What a run for more octets comes to, by what a run for the first of them leaves: it goes on for
the other `n` octets, or it has ended as that one has. -/
inductive Continues (o : ReadPolicy) (horizon n : Nat) : Filled → Filled → Prop
  | ok (octets : Bytes) (now : Nat) (rest : List ReadEvent) :
      Continues o horizon n ⟨.ok (), octets, now, rest⟩
        (fill o horizon n (o.deadline now) false octets now rest)
  | error (cause : Option Fault) (octets : Bytes) (now : Nat) (rest : List ReadEvent) :
      Continues o horizon n ⟨.error cause, octets, now, rest⟩ ⟨.error cause, octets, now, rest⟩

theorem continues_expire (n horizon : Nat) (deadline : Option Nat) (octets : Bytes) (now : Nat)
    (rest : List ReadEvent) :
    Continues o horizon n (expire horizon deadline octets now rest)
      (expire horizon deadline octets now rest) := by
  unfold expire
  rcases expiry_cases horizon deadline now with ⟨limit, -, -, h⟩ | h
  · rw [h]
    exact .error _ octets limit rest
  · rw [h]
    exact .error _ octets now rest

/-- The octets of one event, when they are enough for the first `m` octets or not. -/
theorem continues_fill_octets {m n : Nat} (hn : 0 < n) {b : Bytes} (hb : ¬b.isEmpty = true)
    {horizon : Nat} (deadline : Option Nat) (octets : Bytes) (now : Nat) {reads : List ReadEvent}
    (hrest : b.length < m → Continues o horizon n
      (fill o horizon (m - b.length) (o.deadline now) false (octets ++ b) now reads)
      (fill o horizon (m - b.length + n) (o.deadline now) false (octets ++ b) now reads)) :
    Continues o horizon n
      (fill o horizon m deadline false octets now (.octets b :: reads))
      (fill o horizon (m + n) deadline false octets now (.octets b :: reads)) := by
  rw [fill, fill, if_neg hb, if_neg hb]
  rcases Nat.lt_trichotomy m b.length with hm | hm | hm
  · -- A part of the event is left, and the other octets begin with it.
    have hleft : ¬(b.drop m).isEmpty = true := by
      rw [List.isEmpty_iff, List.drop_eq_nil_iff]
      omega
    have hwhole : octets ++ b.take m ++ b.drop m = octets ++ b := by
      rw [List.append_assoc, List.take_append_drop]
    have hlater : Continues o horizon n _ _ :=
      .ok (octets ++ b.take m) now (.octets (b.drop m) :: reads)
    rw [fill, if_neg hleft, List.length_drop, hwhole] at hlater
    rw [if_pos hm]
    rcases Nat.lt_trichotomy n (b.length - m) with hn' | hn' | hn'
    · rw [if_pos hn', List.append_assoc, ← List.take_add, List.drop_drop] at hlater
      rwa [if_pos (by omega)]
    · rw [if_neg (by omega), if_pos hn'] at hlater
      rwa [if_neg (by omega), if_pos (by omega)]
    · rw [if_neg (by omega), if_neg (by omega)] at hlater
      rw [if_neg (by omega), if_neg (by omega)]
      rwa [show m + n - b.length = n - (b.length - m) by omega]
  · rw [if_neg (by omega), if_pos hm, if_neg (by omega), if_neg (by omega)]
    rw [show m + n - b.length = n by omega]
    exact .ok (octets ++ b) now reads
  · rw [if_neg (by omega), if_neg (by omega), if_neg (by omega), if_neg (by omega)]
    rw [show m + n - b.length = m - b.length + n by omega]
    exact hrest hm

/-- A run for `m + n` octets is one for `m` octets, and then one for `n`. -/
theorem continues_fill (ho : o.toleratesInterrupt = false) {n : Nat} (hn : 0 < n)
    (horizon m : Nat) (deadline : Option Nat) (octets : Bytes) (now : Nat)
    (reads : List ReadEvent) :
    Continues o horizon n (fill o horizon m deadline false octets now reads)
      (fill o horizon (m + n) deadline false octets now reads) := by
  have hpassed (b : Bytes) : ¬(o.toleratesInterrupt && b.isEmpty) = true := by
    rw [ho]
    exact Bool.false_ne_true
  induction reads generalizing m deadline octets now with
  | nil =>
    rw [fill, fill]
    exact continues_expire n horizon deadline octets now []
  | cons e reads ih =>
    cases e with
    | octets b =>
      by_cases hb : b.isEmpty = true
      · rw [fill, fill, if_pos hb, if_pos hb]
        exact .error _ octets now reads
      · exact continues_fill_octets hn hb deadline octets now fun _ => ih _ _ _ _
    | fault cause =>
      rw [fill.eq_def, fill.eq_def _ _ (m + n)]
      cases cause with
      | interrupted | wouldBlock =>
        dsimp only
        rw [if_neg (hpassed _), if_neg (hpassed _)]
        exact ih _ _ _ _
      | _ => exact .error _ octets now reads
    | ended =>
      rw [fill, fill]
      exact .error _ octets now _
    | delay milliseconds =>
      rw [fill, fill]
      split_ifs
      · exact continues_expire n horizon deadline octets now _
      · exact ih _ _ _ _
      · exact .error _ octets now _
    | quietUntil instant =>
      rw [fill, fill]
      split_ifs
      · exact ih _ _ _ _
      · exact continues_expire n horizon deadline octets now _
      · exact ih _ _ _ _
      · exact .error _ octets now _

namespace Transport

/-- The transport that a call leaves, whether it gets to its end or stops short. -/
def leftBy {α : Type} : EStateM.Result Halt Transport α → Transport
  | .ok _ t => t
  | .error _ t => t

/-- What a call gives, if it gets to its end. -/
def given? {α : Type} : EStateM.Result Halt Transport α → Option α
  | .ok a _ => some a
  | .error _ _ => none

variable {t : Transport} {wait : Option Nat}

/-! ## A read and what its stream makes of it -/

/-- What the stream of a transport makes of a read for which the buffer is too short. -/
def filled (size : Nat) (initial : Bool) (wait : Option Nat) (t : Transport) : Filled :=
  let o : ReadPolicy :=
    { timeout := wait <|> t.readTimeout, toleratesInterrupt := initial && t.toleratesInterrupt }
  fill o t.stream.horizon (size - t.buffer.length) (o.deadline t.stream.now) false t.buffer
    t.stream.now t.stream.reads

/-- A transport that keeps some octets after what its stream has made of a read. -/
def withFilled (f : Filled) (buffer : Bytes) (t : Transport) : Transport :=
  { t with stream := { t.stream with now := f.now, reads := f.rest }, buffer }

theorem take_of_buffered {size : Nat} (h : size ≤ t.buffer.length) (initial : Bool)
    (wait : Option Nat) :
    take size initial wait t =
      .ok (t.buffer.take size) { t with buffer := t.buffer.drop size } := by
  unfold take
  rw [if_pos (List.length_take_of_le h)]

theorem take_of_not_isOpen {size : Nat} (h : t.buffer.length < size) (hopen : t.isOpen = false)
    (initial : Bool) (wait : Option Nat) :
    take size initial wait t = .error (.fault (.closed .transportClosed)) t := by
  have hshort : (t.buffer.take size).length ≠ size := by
    rw [List.length_take]
    omega
  unfold take
  rw [if_neg hshort, hopen]
  rfl

/-- How a read comes out by what its stream makes of it: it has taken all of the buffer, or it puts
back what it has. -/
def finished (f : Filled) (t : Transport) : EStateM.Result Halt Transport Bytes :=
  match f.result with
  | .ok () => .ok f.octets (t.withFilled f [])
  | .error cause => .error (haltOf cause) (t.withFilled f f.octets)

theorem take_of_isOpen {size : Nat} (h : t.buffer.length < size) (hopen : t.isOpen = true)
    (initial : Bool) (wait : Option Nat) :
    take size initial wait t = t.finished (t.filled size initial wait) := by
  have hshort : (t.buffer.take size).length ≠ size := by
    rw [List.length_take]
    omega
  have hno : ¬(!t.isOpen) = true := by simp [hopen]
  unfold take
  rw [if_neg hshort, if_neg hno, List.take_of_length_le (Nat.le_of_lt h),
    List.drop_of_length_le (Nat.le_of_lt h)]
  unfold finished filled
  dsimp only
  cases (fill _ _ _ _ _ _ _ _).result with
  | ok _ => rfl
  | error cause =>
    rw [List.append_nil]
    rfl

/-! ## Reading in pieces -/

/-- A read in two pieces, of which the first is put back if the second one fails. -/
def takeTwo (m n : Nat) (wait : Option Nat) : Action Transport Bytes := do
  let front ← take m false wait
  let back ← restoring front (take n false wait)
  return front ++ back

theorem restoring_of_ok {α : Type} {x : Action Transport α} {a : α} {t' : Transport}
    (h : x t = .ok a t') (read : Bytes) : restoring read x t = .ok a t' := by
  unfold restoring
  rw [h]

theorem restoring_of_error {α : Type} {x : Action Transport α} {halt : Halt} {t' : Transport}
    (h : x t = .error halt t') (read : Bytes) :
    restoring read x t = .error halt { t' with buffer := read ++ t'.buffer } := by
  unfold restoring
  rw [h]

theorem takeTwo_of_ok {m n : Nat} {front back : Bytes} {t₁ t₂ : Transport}
    (hm : take m false wait t = .ok front t₁) (hn : take n false wait t₁ = .ok back t₂) :
    takeTwo m n wait t = .ok (front ++ back) t₂ := by
  unfold takeTwo
  rw [Action.bind_of_ok hm, Action.bind_of_ok (restoring_of_ok hn front)]
  rfl

theorem takeTwo_of_error {m n : Nat} {front : Bytes} {halt : Halt} {t₁ t₂ : Transport}
    (hm : take m false wait t = .ok front t₁) (hn : take n false wait t₁ = .error halt t₂) :
    takeTwo m n wait t = .error halt { t₂ with buffer := front ++ t₂.buffer } := by
  unfold takeTwo
  rw [Action.bind_of_ok hm, Action.bind_of_error (restoring_of_error hn front)]

/-- The second piece goes on where the buffer has ended in the first one. -/
theorem takeTwo_of_buffered {m n : Nat} (hm : m ≤ t.buffer.length) (hn : t.buffer.length < m + n)
    (hopen : t.isOpen = true) (wait : Option Nat) :
    takeTwo m n wait t = t.finished (t.filled (m + n) false wait) := by
  have hfront := take_of_buffered hm false wait
  have hshort : (t.buffer.drop m).length < n := by
    rw [List.length_drop]
    omega
  have hback := take_of_isOpen (t := { t with buffer := t.buffer.drop m }) hshort hopen false wait
  have hwhole : t.filled (m + n) false wait =
      (filled n false wait { t with buffer := t.buffer.drop m }).behind (t.buffer.take m) := by
    unfold filled
    dsimp only
    rw [← fill_behind rfl, List.take_append_drop, List.length_drop,
      show m + n - t.buffer.length = n - (t.buffer.length - m) by omega]
  rw [hwhole]
  generalize filled n false wait { t with buffer := t.buffer.drop m } = f at hback ⊢
  obtain ⟨result, octets, now, rest⟩ := f
  cases result with
  | ok _ => exact takeTwo_of_ok hfront hback
  | error cause => exact takeTwo_of_error hfront hback

/-- The first piece empties the buffer, and the second one comes from the stream. -/
theorem takeTwo_of_short {m n : Nat} (hn : 0 < n) (hm : t.buffer.length < m)
    (hopen : t.isOpen = true) (wait : Option Nat) :
    takeTwo m n wait t = t.finished (t.filled (m + n) false wait) := by
  have hfront := take_of_isOpen hm hopen false wait
  have hcontinues : Continues ⟨wait <|> t.readTimeout, false⟩ t.stream.horizon n
      (t.filled m false wait) (t.filled (m + n) false wait) := by
    unfold filled
    rw [show m + n - t.buffer.length = m - t.buffer.length + n by omega]
    exact continues_fill rfl hn _ _ _ _ _ _
  generalize t.filled m false wait = f at hfront hcontinues
  generalize t.filled (m + n) false wait = whole at hcontinues ⊢
  cases hcontinues with
  | error cause octets now rest =>
    unfold takeTwo
    rw [Action.bind_of_error hfront]
    rfl
  | ok octets now rest =>
    -- The first piece has left an empty buffer behind.
    generalize hleft : t.withFilled ⟨.ok (), octets, now, rest⟩ [] = t₁
    have hback : take n false wait t₁ = t₁.finished (t₁.filled n false wait) := by
      subst hleft
      exact take_of_isOpen (t := t.withFilled ⟨.ok (), octets, now, rest⟩ []) hn hopen false wait
    have hwhole : fill ⟨wait <|> t.readTimeout, false⟩ t.stream.horizon n
        (ReadPolicy.deadline ⟨wait <|> t.readTimeout, false⟩ now) false octets now rest =
        (t₁.filled n false wait).behind octets := by
      subst hleft
      have hbehind := fill_behind (o := ⟨wait <|> t.readTimeout, false⟩) rfl octets []
        t.stream.horizon n (ReadPolicy.deadline ⟨wait <|> t.readTimeout, false⟩ now) now rest
      rw [List.append_nil] at hbehind
      exact hbehind
    rw [hwhole]
    have hfront' : take m false wait t = .ok octets t₁ := by
      rw [hfront, ← hleft]
      rfl
    generalize t₁.filled n false wait = g at hback ⊢
    obtain ⟨result, more, later, left⟩ := g
    subst hleft
    cases result with
    | ok _ => exact takeTwo_of_ok hfront' hback
    | error cause => exact takeTwo_of_error hfront' hback

/-- A transport without a stream only has what is in its buffer. -/
theorem takeTwo_of_not_isOpen {m n : Nat} (hshort : t.buffer.length < m + n)
    (hopen : t.isOpen = false) (wait : Option Nat) :
    takeTwo m n wait t = .error (.fault (.closed .transportClosed)) t := by
  rcases Nat.lt_or_ge t.buffer.length m with hm | hm
  · unfold takeTwo
    exact Action.bind_of_error (take_of_not_isOpen hm hopen false wait)
  · have hleft : (t.buffer.drop m).length < n := by
      rw [List.length_drop]
      omega
    have hback := take_of_not_isOpen (t := { t with buffer := t.buffer.drop m }) hleft hopen false
      wait
    rw [takeTwo_of_error (take_of_buffered hm false wait) hback, List.take_append_drop]

/-- A read is one in two pieces. -/
theorem take_add (m : Nat) {n : Nat} (hn : 0 < n) (wait : Option Nat) (t : Transport) :
    take (m + n) false wait t = takeTwo m n wait t := by
  rcases Nat.lt_or_ge t.buffer.length (m + n) with hshort | hbuffered
  · cases hopen : t.isOpen with
    | false => rw [take_of_not_isOpen hshort hopen, takeTwo_of_not_isOpen hshort hopen]
    | true =>
      rw [take_of_isOpen hshort hopen]
      rcases Nat.lt_or_ge t.buffer.length m with hm | hm
      · exact (takeTwo_of_short hn hm hopen wait).symm
      · exact (takeTwo_of_buffered hm hshort hopen wait).symm
  · have hm : m ≤ t.buffer.length := by omega
    have hleft : n ≤ (t.buffer.drop m).length := by
      rw [List.length_drop]
      omega
    have hback := take_of_buffered (t := { t with buffer := t.buffer.drop m }) hleft false wait
    rw [take_of_buffered hbuffered, takeTwo_of_ok (take_of_buffered hm false wait) hback,
      List.take_add, List.drop_drop]

/-- Reads the whole of a payload at once, behind what is read. -/
def takeWhole (missing : Nat) (wait : Option Nat) (read : Bytes) : Action Transport Bytes := do
  let payload ← restoring read (take missing false wait)
  return read ++ payload

theorem takeWhole_zero (wait : Option Nat) (read : Bytes) (t : Transport) :
    takeWhole 0 wait read t = .ok read t := by
  unfold takeWhole
  rw [Action.bind_of_ok (restoring_of_ok (take_of_buffered (Nat.zero_le _) false wait) read)]
  rw [List.take_zero, List.append_nil, List.drop_zero]
  rfl

/-- The whole of a payload is its first piece, and then the whole of the rest. -/
theorem takeWhole_add (m : Nat) {n : Nat} (hn : 0 < n) (wait : Option Nat) (read : Bytes)
    (t : Transport) :
    takeWhole (m + n) wait read t =
      (restoring read (take m false wait) >>= fun piece => takeWhole n wait (read ++ piece)) t := by
  have htwo := take_add m hn wait t
  cases hm : take m false wait t with
  | error halt t₁ =>
    have hstop : takeTwo m n wait t = .error halt t₁ := Action.bind_of_error hm
    unfold takeWhole
    rw [Action.bind_of_error (restoring_of_error (htwo.trans hstop) read),
      Action.bind_of_error (restoring_of_error hm read)]
  | ok piece t₁ =>
    rw [Action.bind_of_ok (restoring_of_ok hm read)]
    unfold takeWhole
    cases hn' : take n false wait t₁ with
    | error halt t₂ =>
      have hstop := takeTwo_of_error hm hn'
      rw [Action.bind_of_error (restoring_of_error (htwo.trans hstop) read),
        Action.bind_of_error (restoring_of_error hn' (read ++ piece)), List.append_assoc]
    | ok more t₂ =>
      have hdone := takeTwo_of_ok hm hn'
      rw [Action.bind_of_ok (restoring_of_ok (htwo.trans hdone) read),
        Action.bind_of_ok (restoring_of_ok hn' (read ++ piece)), List.append_assoc]

/-- Pieces of any size make a whole. -/
theorem takePieces_eq {ceiling : Nat} (hceiling : 0 < ceiling) (wait : Option Nat)
    {fuel missing : Nat} (hfuel : missing ≤ fuel) (read : Bytes) (t : Transport) :
    takePieces ceiling wait fuel missing read t = takeWhole missing wait read t := by
  induction fuel generalizing missing read t with
  | zero =>
    obtain rfl := Nat.le_zero.1 hfuel
    rw [takePieces_zero, takeWhole_zero]
  | succ fuel ih =>
    by_cases hmissing : missing = 0
    · subst hmissing
      rw [takePieces_zero, takeWhole_zero]
    rw [takePieces_succ ceiling wait fuel read t hmissing]
    rcases Nat.lt_or_ge ceiling missing with hmore | hlast
    · have hrest : missing = ceiling + (missing - ceiling) := by omega
      have hwhole := takeWhole_add ceiling (Nat.sub_pos_of_lt hmore) wait read t
      rw [← hrest] at hwhole
      rw [hwhole, Nat.min_eq_left (Nat.le_of_lt hmore)]
      exact congrArg (fun f => (restoring read (take ceiling false wait) >>= f) t)
        (funext fun piece => funext fun t' => ih (by omega) (read ++ piece) t')
    · rw [Nat.min_eq_right hlast, Nat.sub_self]
      exact congrArg (fun f => (restoring read (take missing false wait) >>= f) t)
        (funext fun piece => funext fun t' => takePieces_zero ceiling wait fuel (read ++ piece) t')

/-! ## Frames -/

/-- Frames are read in the same way whatever the ceiling of the pieces is: every call gives the same
header and body, or stops short for the same reason, and leaves the same octets in the buffer, the
same events and the same time. -/
theorem takeFrame_eq_of_pos {ceiling unbounded : Nat} (hceiling : 0 < ceiling)
    (hunbounded : 0 < unbounded) (wait : Option Nat) :
    takeFrame ceiling wait = takeFrame unbounded wait := by
  have hpieces (missing : Nat) (read : Bytes) :
      takePieces ceiling wait missing missing read =
        takePieces unbounded wait missing missing read := by
    funext t
    rw [takePieces_eq hceiling wait (Nat.le_refl missing),
      takePieces_eq hunbounded wait (Nat.le_refl missing)]
  unfold takeFrame
  simp only [hpieces]

/-- The second half of a frame header, then its body in three segments, with a pause beyond the read
timeout. -/
def brokenBody : Transport where
  host := ""
  port := 0
  tls := none
  readTimeout := some 20
  writeTimeout := none
  toleratesInterrupt := true
  stream :=
    { horizon := 1000
      reads := [.octets [2, 0, 0, 1, 83], .octets [24, 69, 1], .delay 30, .octets [2, 3, 4]] }
  isOpen := true
  buffer := [0, 0, 0, 14]
  isConnected := true

/-- With pieces of two octets the pause falls into the third piece.  All octets up to it are put
back, and the next call gives the whole body. -/
theorem takeFrame_eq_of_brokenBody :
    0 < 2 ∧ 0 < 4294967295 ∧ takeFrame 2 none = takeFrame 4294967295 none ∧
      given? (takeFrame 2 none brokenBody) = none ∧
      (leftBy (takeFrame 2 none brokenBody)).buffer =
        [0, 0, 0, 14, 2, 0, 0, 1, 83, 24, 69, 1] ∧
      given? (takeFrame 2 none (leftBy (takeFrame 2 none brokenBody))) =
        some ([0, 0, 0, 14, 2, 0, 0, 1], ⟨14, 2, 0, 1⟩, some [83, 24, 69, 1, 2, 3]) ∧
      (leftBy (takeFrame 2 none (leftBy (takeFrame 2 none brokenBody)))).stream.reads =
        [.octets [4]] :=
  ⟨by decide, by decide, takeFrame_eq_of_pos (by decide) (by decide) none, by decide +kernel,
    by decide +kernel, by decide +kernel, by decide +kernel⟩

end Transport

end Amqp
