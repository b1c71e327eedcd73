import Amqp.Proofs.Connection.Silence
import Amqp.Proofs.Transport.Conserving

/-!
# How many polls there can be

A poll that gets to its end has used up some time, an event of the stream, or octets before the
transport (`remaining_poll`).  What frames make a connection write gives none of that back.  So a
wait takes fewer than `pollBound` polls, and it would be the same with any greater bound
(`await_eq_pollUntil`, `drive_eq_driveWithin`).
-/

namespace Amqp

/-! ## Transports -/

namespace Transport

variable {t t' : Transport} {bound : Nat}

/-- How often receiving can still get to its end, at most. -/
def remaining (t : Transport) : Nat := t.occasions + t.incoming.length

/-- Receiving leaves less for later calls. -/
theorem remaining_receive {wait : Nat} (hwait : 0 < wait) {got : Option (UInt16 × Frame)}
    (h : receive (some wait) t = .ok got t') : t'.remaining < t.remaining := by
  obtain ⟨hle, hless⟩ := wearsOut_receive hwait h
  obtain ⟨hkept, hused⟩ := drains_receive h
  unfold remaining
  cases got with
  | none => exact Nat.add_lt_add_of_lt_of_le (hless rfl) (Nat.le_of_eq (congrArg _ (hkept rfl)))
  | some x => exact Nat.add_lt_add_of_le_of_lt hle (hused nofun)

theorem keeps_remaining_write (data : Bytes) :
    Action.Keeps (fun t => t.remaining ≤ bound) (write data) := by
  intro t ht
  have hdeadline : ∀ instant, t.writeTimeout.map (t.stream.now + ·) = some instant →
      t.stream.now ≤ instant := by
    intro instant h
    obtain ⟨timeout, -, rfl⟩ := Option.map_eq_some_iff.1 h
    exact Nat.le_add_right _ _
  have hnow : t.stream.now ≤ (t.poured data).now :=
    now_le_now_pour t.stream.horizon _ t.stream.taken hdeadline data t.stream.writes
  have hle : (t.withPoured (t.poured data)).remaining ≤ bound := by
    refine Nat.le_trans (Nat.add_le_add_right (Nat.add_le_add_right ?_ _) _) ht
    exact Nat.sub_le_sub_left hnow _
  have hspec := write_spec data t
  generalize write data t = r at hspec ⊢
  cases hspec with
  | closed _ => exact ht
  | done _ => exact hle
  | stalled _ => exact hle
  | failed f _ =>
    show remaining (if f.isTimeout then _ else _) ≤ bound
    split_ifs
    · exact hle
    · exact hle

theorem remaining_close_le (t : Transport) : t.close.remaining ≤ t.remaining := by
  refine Nat.add_le_add_left ?_ _
  unfold incoming
  rw [List.length_append, List.length_append]
  exact Nat.add_le_add_right (Nat.zero_le _) _

end Transport

/-! ## Connections -/

namespace Connection

variable {c c' : Connection} {bound : Nat}

/-- How often polling can still get to its end, at most. -/
def remaining (c : Connection) : Nat := c.carrier.transport.remaining

theorem Carrier.keeps_remaining_carry (channel : UInt16) (p : Performative)
    (_ : p.isOfSession = true) :
    Action.Keeps (fun k : Carrier => k.transport.remaining ≤ bound)
      (FrameCarrier.carry channel p) :=
  keeps_carry_of_send
    (Action.Keeps.within (Transport.keeps_remaining_write _) (fun _ => id) fun _ _ _ => id)

theorem outlastsClosing_remaining : OutlastsClosing fun c => c.remaining ≤ bound where
  enter {c state} hc _ := by
    unfold remaining
    rw [carrier_enter]
    exact hc
  send v c hc := leaves_transporting (Transport.keeps_remaining_write _ c.carrier.transport hc)
  terminate {c} hc := by
    have htransport : c.terminate.carrier.transport = c.carrier.transport.close := by
      unfold terminate
      dsimp only
      rw [carrier_enter]
    unfold remaining
    rw [htransport]
    exact Nat.le_trans (Transport.remaining_close_le _) hc

theorem keeps_remaining_onOpen (v : Open) :
    Action.Keeps (fun c => c.remaining ≤ bound) (onOpen v) := by
  intro c hc
  rcases onOpen_cases v c with ⟨-, size, c', hopen, hcarrier⟩ | ⟨cause, hopen⟩
  · rw [hopen]
    change c'.carrier.transport.remaining ≤ bound
    rw [hcarrier]
    exact hc
  · rw [hopen]
    exact hc

/-- What a frame makes of a connection gives nothing back. -/
theorem keeps_remaining_dispatch (channel : UInt16) (p : Performative) :
    Action.Keeps (fun c => c.remaining ≤ bound) (dispatch channel p) := by
  cases p with
  | openFrame v => exact keeps_remaining_onOpen v
  | close v => exact outlastsClosing_remaining.onClose
  | begin v => exact keeps_onBegin Carrier.keeps_remaining_carry channel v
  | _ => exact keeps_onSessionFrame Carrier.keeps_remaining_carry channel _

/-- A poll that gets to its end leaves less for later ones. -/
theorem remaining_poll {wait : Nat} (hwait : 0 < wait) (h : poll (some wait) c = .ok () c') :
    c'.remaining < c.remaining := by
  unfold poll at h
  cases hreceive : transporting (Transport.receive (some wait)) c with
  | error halt d =>
    rw [hreceive] at h
    cases halt with
    | stalled => cases h
    | fault f =>
      rcases guarded_eq_ok h with hraise | ⟨-, -, hspared⟩
      · cases hraise
      · cases hspared
  | ok got d =>
    rw [hreceive] at h
    have hless : d.remaining < c.remaining := by
      obtain ⟨t, hgot, rfl⟩ := transporting_eq_ok hreceive
      exact Transport.remaining_receive hwait hgot
    match got with
    | none | some (_, .heartbeat) =>
      cases h
      exact hless
    | some (channel, .performative p) =>
      refine Nat.lt_of_le_of_lt ?_ hless
      exact leaves_of_guarded_eq_ok
        (keeps_remaining_dispatch channel p d (Nat.le_refl d.remaining)) h

/-! ## Waits -/

theorem idleWait_pos (c : Connection) : 0 < c.idleWait :=
  Nat.lt_of_lt_of_le Nat.zero_lt_one (Nat.le_max_left _ _)

/-- A poll and what follows are the same with any bound that lasts. -/
theorem poll_bind_congr {α : Type} {wait : Nat} (hwait : 0 < wait) {f f' : Action Connection α}
    (h : ∀ d, d.remaining < c.remaining → f d = f' d) :
    (poll (some wait) >>= fun _ => f) c = (poll (some wait) >>= fun _ => f') c := by
  cases hpoll : poll (some wait) c with
  | error halt d => rw [Action.bind_of_error hpoll, Action.bind_of_error hpoll]
  | ok _ d =>
    rw [Action.bind_of_ok hpoll, Action.bind_of_ok hpoll]
    exact h d (remaining_poll hwait hpoll)

theorem pollUntil_congr (reached : Connection → Bool) (deadline : Option Nat) {fuel fuel' : Nat}
    (h : c.remaining < fuel) (h' : c.remaining < fuel') :
    pollUntil reached deadline fuel c = pollUntil reached deadline fuel' c := by
  induction fuel generalizing fuel' c with
  | zero => exact absurd h (Nat.not_lt_zero _)
  | succ fuel ih =>
    obtain ⟨fuel', rfl⟩ := Nat.exists_eq_add_one_of_ne_zero (Nat.ne_zero_of_lt h')
    have hgo {wait : Nat} (hwait : 0 < wait) :
        (poll (some wait) >>= fun _ => pollUntil reached deadline fuel) c =
          (poll (some wait) >>= fun _ => pollUntil reached deadline fuel') c :=
      poll_bind_congr hwait fun d hd => ih (by omega) (by omega)
    rw [pollUntil, pollUntil, Action.get_bind, Action.get_bind]
    dsimp only
    split
    · rfl
    split
    · rfl
    cases deadline with
    | none => exact hgo c.idleWait_pos
    | some instant =>
      dsimp only
      split
      · rfl
      · rename_i hearly
        exact hgo (Nat.lt_min.2 ⟨c.idleWait_pos, Nat.sub_pos_of_lt (Nat.lt_of_not_le hearly)⟩)

theorem driveWithin_congr (shutdown : Shutdown) {fuel fuel' : Nat} (h : c.remaining < fuel)
    (h' : c.remaining < fuel') :
    driveWithin shutdown fuel c = driveWithin shutdown fuel' c := by
  induction fuel generalizing fuel' c with
  | zero => exact absurd h (Nat.not_lt_zero _)
  | succ fuel ih =>
    obtain ⟨fuel', rfl⟩ := Nat.exists_eq_add_one_of_ne_zero (Nat.ne_zero_of_lt h')
    rw [driveWithin, driveWithin, Action.get_bind, Action.get_bind]
    split
    · rfl
    split
    · rfl
    · exact poll_bind_congr c.idleWait_pos fun d hd =>
        ih (c := d.evaluate) (Nat.lt_of_lt_of_le hd (Nat.le_of_lt_succ h))
          (Nat.lt_of_lt_of_le hd (Nat.le_of_lt_succ h'))

theorem foldl_add_weight {weight : ReadEvent → Nat}
    (hweight : ∀ e : ReadEvent, weight e = e.content.length + 1) (n : Nat)
    (reads : List ReadEvent) : reads.foldl (fun n e => n + weight e) n =
      n + reads.length + (arriving reads).length := by
  induction reads generalizing n with
  | nil => rfl
  | cons e reads ih =>
    rw [List.foldl_cons, ih, hweight, arriving_cons, List.length_append, List.length_cons]
    omega

theorem pollBound_eq (c : Connection) :
    c.pollBound = c.carrier.transport.occasions + c.carrier.transport.incoming.length + 1 := by
  unfold pollBound
  dsimp only
  rw [foldl_add_weight, Transport.occasions, Transport.incoming, List.length_append]
  · omega
  · intro e
    cases e <;> rfl

theorem remaining_lt_pollBound (c : Connection) : c.remaining < c.pollBound := by
  rw [pollBound_eq]
  exact Nat.lt_succ_self _

/-- A wait is the same with any greater bound on its polls. -/
theorem await_eq_pollUntil (wait : Patience) (reached : Connection → Bool) {fuel : Nat}
    (h : c.pollBound ≤ fuel) :
    await wait reached c = pollUntil reached (wait.deadline? c.now) fuel c :=
  pollUntil_congr reached _ c.remaining_lt_pollBound
    (Nat.lt_of_lt_of_le c.remaining_lt_pollBound h)

/-- Driving is the same with any greater bound on its polls. -/
theorem drive_eq_driveWithin (shutdown : Shutdown) {fuel : Nat} (h : c.pollBound ≤ fuel) :
    drive shutdown c = driveWithin shutdown fuel c :=
  driveWithin_congr shutdown c.remaining_lt_pollBound
    (Nat.lt_of_lt_of_le c.remaining_lt_pollBound h)

end Connection

end Amqp
