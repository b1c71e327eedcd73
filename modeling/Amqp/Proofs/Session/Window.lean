import Amqp.Proofs.Session.Events

/-!
# The peer's incoming window

Transfer ids and windows wrap around; here transfers are counted without wrapping.  The count begins
with the first transfer id and goes up with every transfer that the carrier accepts.  The limit is
what the peer lets the count reach: a Begin or a flow sets it (`Event.limit`).

`Windowed` says that a session knows the count up to wrapping, and how far the limit is away.  Moves
keep it, and transfers only go out below the limit (`Windowed.moves`).
-/

namespace Amqp.Session

/-! ## Ids that wrap around -/

/-- The number nearest to `n` that an id stands for. -/
def nearest (n : Int) (id : UInt32) : Int := n + (id.toNat - n).bmod 0x100000000

/-- Within half of the range from `n` an id stands for one number. -/
theorem eq_nearest_iff (n a : Int) (id : UInt32) :
    a = nearest n id ↔ a % 0x100000000 = id.toNat ∧ n - 0x80000000 ≤ a ∧ a < n + 0x80000000 := by
  have hid := id.toNat_lt
  unfold nearest
  rw [Int.bmod_def]
  omega

theorem idDifference_eq (a b : UInt32) :
    idDifference a b = ((a.toNat : Int) - b.toNat).bmod 0x100000000 := by
  have ha := a.toNat_lt
  have hb := b.toNat_lt
  have hsub := UInt32.toNat_sub a b
  have htoInt : idDifference a b = (a - b).toBitVec.toInt := rfl
  rw [htoInt, BitVec.toInt_eq_toNat_bmod, UInt32.toNat_toBitVec, hsub, Int.bmod_def, Int.bmod_def]
  omega

theorem nearest_eq (n : Nat) (id : UInt32) :
    nearest n id = n + idDifference id (UInt32.ofNat n) := by
  have hid := id.toNat_lt
  have hn : (UInt32.ofNat n).toNat = n % 0x100000000 := UInt32.toNat_ofNat'
  rw [idDifference_eq, hn, nearest, Int.bmod_def, Int.bmod_def]
  omega

theorem idDifference_self (id : UInt32) : idDifference id id = 0 := by
  rw [idDifference_eq, Int.sub_self]
  rfl

/-! ## Counts and limits -/

/-- The count of transfers: the first transfer id and one more for every transfer among the
frames. -/
def countFrom (base : UInt32) (frames : List (UInt16 × Performative)) : Nat :=
  base.toNat + (transfersOf frames).length

variable {base : UInt32} {frames : List (UInt16 × Performative)}

theorem countFrom_of_transfersOf_nil {more : List (UInt16 × Performative)}
    (h : transfersOf more = []) : countFrom base (frames ++ more) = countFrom base frames := by
  unfold countFrom
  rw [transfersOf_append, h, List.append_nil]

theorem countFrom_transfer (channel : UInt16) (t : Transfer) :
    countFrom base (frames ++ [(channel, .transfer t)]) = countFrom base frames + 1 := by
  unfold countFrom
  rw [transfersOf_append, List.length_append]
  rfl

/-- Whether a session has the count of its transfers, up to wrapping, and knows how far the limit is
away. -/
structure Windowed (base : UInt32) (limit : Int) (s : Session)
    (frames : List (UInt16 × Performative)) : Prop where
  next_eq : s.nextOutgoingId = UInt32.ofNat (countFrom base frames)
  window_eq : s.remoteIncomingWindow = limit - countFrom base frames

/-! ## Moves -/

theorem Turn.transfersOf_eq_nil {state state' : State} {ps : List Performative}
    (h : Turn state ps state') (channel : UInt16) : transfersOf (ps.map (channel, ·)) = [] := by
  cases h <;> rfl

/-- A move counts nothing, or sends a transfer on which the window has room. -/
theorem Move.window_cases {s s' : Session} {ps : List Performative} (h : Move s ps s') :
    (transfersOf (ps.map (s.channel, ·)) = [] ∧ s'.nextOutgoingId = s.nextOutgoingId ∧
      s'.remoteIncomingWindow = s.remoteIncomingWindow) ∨
    ∃ t, ps = [.transfer t] ∧ s' = s.countOutgoing ∧ 0 < s.remoteIncomingWindow := by
  cases h with
  | turn h => exact Or.inl ⟨h.transfersOf_eq_nil s.channel, rfl, rfl⟩
  | speak h =>
    rename_i p
    refine Or.inl ⟨?_, rfl, rfl⟩
    cases p <;> first | rfl | exact absurd h id
  | transfer hwindow => exact Or.inr ⟨_, rfl, rfl, hwindow⟩
  | remove name =>
    refine Or.inl ⟨rfl, ?_⟩
    unfold Session.remove
    split <;> exact ⟨rfl, rfl⟩
  | _ => exact Or.inl ⟨rfl, rfl, rfl⟩

namespace Windowed

variable {limit : Int} {s s' : Session} {ps : List Performative}

theorem move (h : Windowed base limit s frames) (hmove : Move s ps s') :
    Windowed base limit s' (frames ++ ps.map (s.channel, ·)) := by
  obtain ⟨hnone, hnext, hwindow⟩ | ⟨t, rfl, rfl, -⟩ := hmove.window_cases
  · have hcount : countFrom base (frames ++ ps.map (s.channel, ·)) = countFrom base frames :=
      countFrom_of_transfersOf_nil hnone
    constructor
    · rw [hnext, hcount, h.next_eq]
    · rw [hwindow, hcount, h.window_eq]
  · have hcount : countFrom base (frames ++ [Performative.transfer t].map (s.channel, ·)) =
        countFrom base frames + 1 :=
      countFrom_transfer s.channel t
    constructor
    · change s.nextOutgoingId + 1 = _
      rw [hcount, h.next_eq, UInt32.ofNat_add]
      rfl
    · change s.remoteIncomingWindow - 1 = _
      rw [hcount, h.window_eq]
      omega

/-- Once a transfer goes out the window is not overdrawn. -/
theorem moves (h : Windowed base limit s frames) (hmoves : Moves s ps s') :
    Windowed base limit s' (frames ++ ps.map (s.channel, ·)) ∧
      (countFrom base frames < countFrom base (frames ++ ps.map (s.channel, ·)) →
        0 ≤ s'.remoteIncomingWindow) := by
  induction hmoves with
  | refl =>
    rw [List.map_nil, List.append_nil]
    exact ⟨h, fun hlt => absurd hlt (Nat.lt_irrefl _)⟩
  | @tail s₁ s₂ ps qs hmoves hmove ih =>
    have hchannel := hmoves.channel_eq
    rw [List.map_append, ← List.append_assoc, ← hchannel]
    rw [← hchannel] at ih
    refine ⟨ih.1.move hmove, ?_⟩
    obtain ⟨hnone, -, hwindow⟩ | ⟨t, rfl, rfl, hpos⟩ := hmove.window_cases
    · rw [hwindow, countFrom_of_transfersOf_nil hnone]
      exact ih.2
    · change _ → 0 ≤ s₁.remoteIncomingWindow - 1
      omega

end Windowed

/-! ## Deliveries -/

/-- Whether transfers are the parts of a delivery, in order, as far as they have gone out: only the
first has the delivery id. -/
def IsDelivery (id : UInt32) (ts : List Transfer) : Prop :=
  (∀ t ∈ ts.head?, t.deliveryId = some id) ∧ ∀ t ∈ ts.tail, t.deliveryId = none

theorem isDelivery_nil (id : UInt32) : IsDelivery id [] := by simp [IsDelivery]

theorem transfersOf_links (channel : UInt16) {ps : List Performative} (h : Talk.links.Holds ps) :
    transfersOf (ps.map (channel, ·)) = [] := by
  refine List.filterMap_eq_nil_iff.2 fun f hf => ?_
  obtain ⟨p, hp, rfl⟩ := List.mem_map.1 hf
  have hlink := h p hp
  cases p <;> first | rfl | exact absurd hlink id

section

variable {κ : Type}

theorem isDelivery_of_talk (channel : UInt16) {s : Session} {ev : Event κ}
    {ps : List Performative} (h : (ev.talk s).Holds ps) :
    IsDelivery s.nextOutgoingId (transfersOf (ps.map (channel, ·))) := by
  have hnone (hps : transfersOf (ps.map (channel, ·)) = []) :
      IsDelivery s.nextOutgoingId (transfersOf (ps.map (channel, ·))) := by
    rw [hps]
    exact isDelivery_nil _
  rcases Event.holds_talk h with h | (rfl | ⟨v, qs, rfl, hqs⟩) | (rfl | ⟨v, rfl⟩) |
    ⟨-, rfl | ⟨t, qs, rfl, ht, us, rfl, hus⟩⟩
  · exact hnone (transfersOf_links channel h)
  · exact isDelivery_nil _
  · have hrest := transfersOf_links channel hqs
    exact hnone hrest
  · exact isDelivery_nil _
  · exact isDelivery_nil _
  · exact isDelivery_nil _
  · have hall := transfersOf_transfers channel (t :: us)
    rw [List.map_cons] at hall
    rw [hall]
    exact ⟨by simpa using ht, hus⟩

/-- A delivery id is reported only for a delivery that has gone out. -/
theorem Windowed.reported {limit : Int} {x : Session × Recorder κ} {k : Talk}
    {action : Acting (Recorder κ) SendOutcome} (h : Windowed base limit x.1 x.2.frames)
    (hruns : Runs k action x.1 (Reports x.1)) {id : UInt32} (hid : sentId (action x) = some id) :
    id = UInt32.ofNat (countFrom base x.2.frames) ∧
      countFrom base x.2.frames < countFrom base (stateAfter (action x)).2.frames := by
  obtain ⟨ps, hmoves, hframes, -, hok⟩ := hruns x.2
  have hafter := (h.moves hmoves).1.window_eq
  rw [← hframes] at hafter
  have hbefore := h.window_eq
  change sentId (action (x.1, x.2)) = some id at hid
  cases hresult : action (x.1, x.2) with
  | error halt y =>
    rw [hresult] at hid
    cases hid
  | ok outcome y =>
    rw [hresult] at hid hafter
    cases outcome with
    | sent reported =>
      cases hid
      obtain ⟨hreported, hsmaller⟩ := hok _ y hresult id rfl
      change y.1.remoteIncomingWindow = limit - (countFrom base y.2.frames : Int) at hafter
      refine ⟨hreported.trans h.next_eq, ?_⟩
      change _ < countFrom base y.2.frames
      omega
    | busy => cases hid
    | refused => cases hid

/-! ## Runs -/

/-- The limit of the count after an event: what a Begin of the peer leaves room for beyond the
count, or a flow beyond the id that it expects next. -/
def Event.limit (count : Nat) (limit : Int) : Event κ → Int
  | .dispatch _ (.begin v) => count + v.incomingWindow.toNat
  | .dispatch _ (.flow v) =>
    v.nextIncomingId.elim (count : Int) (nearest count) + v.incomingWindow.toNat
  | _ => limit

theorem Windowed.adds {limit : Int} {name : String} {s s' : Session}
    (h : Windowed base limit s frames) (hadds : Adds name s s') :
    Windowed base limit s' frames := by
  obtain ⟨l, handle, -, -, rfl⟩ := hadds
  exact ⟨h.next_eq, h.window_eq⟩

theorem Windowed.prepare {limit : Int} {s : Session} (h : Windowed base limit s frames)
    (ev : Event κ) :
    Windowed base (ev.limit (countFrom base frames) limit) (ev.prepare s) frames := by
  cases hname : ev.addedName? with
  | some name =>
    have hlimit : ev.limit (countFrom base frames) limit = limit := by
      cases ev with
      | addSender | addReceiver => rfl
      | _ => cases hname
    rw [hlimit]
    rcases Event.adds_prepare hname s with hsame | hadds
    · rwa [hsame]
    · exact h.adds hadds
  | none =>
    cases ev with
    | addSender | addReceiver => cases hname
    | dispatch remoteChannel p =>
      cases p with
      | begin v =>
        refine ⟨h.next_eq, ?_⟩
        change (v.incomingWindow.toNat : Int) = _ + v.incomingWindow.toNat - _
        omega
      | flow v =>
        refine ⟨h.next_eq, ?_⟩
        have hnext := h.next_eq
        change idDifference (v.nextIncomingId.getD s.nextOutgoingId) s.nextOutgoingId +
          v.incomingWindow.toNat = v.nextIncomingId.elim (countFrom base frames : Int) _ +
            v.incomingWindow.toNat - _
        cases v.nextIncomingId with
        | none =>
          rw [Option.getD_none, Option.elim_none, idDifference_self]
          omega
        | some id =>
          rw [Option.getD_some, Option.elim_some, nearest_eq, ← hnext]
          omega
      | transfer v => exact ⟨h.next_eq, h.window_eq⟩
      | _ => exact h
    | _ => exact h

theorem windowed_start (o : Origin κ) :
    Windowed o.settings.nextOutgoingId o.settings.nextOutgoingId.toNat o.start.1
      o.start.2.frames := by
  exact ⟨UInt32.ofNat_toNat.symm, (Int.sub_self _).symm⟩

variable [FrameCarrier κ]

/-- The limit of the count after events in a row. -/
def limitAfter (base : UInt32) : List (Event κ) → Session × Recorder κ → Int → Int
  | [], _, limit => limit
  | ev :: evs, x, limit =>
    limitAfter base evs (after x ev) (ev.limit (countFrom base x.2.frames) limit)

theorem Windowed.after {limit : Int} {x : Session × Recorder κ}
    (h : Windowed base limit x.1 x.2.frames) (ev : Event κ) :
    Windowed base (ev.limit (countFrom base x.2.frames) limit) (after x ev).1
        (after x ev).2.frames ∧
      (countFrom base x.2.frames < countFrom base (after x ev).2.frames →
        (countFrom base (after x ev).2.frames : Int) ≤
          ev.limit (countFrom base x.2.frames) limit) := by
  obtain ⟨ps, hmoves, hframes, -⟩ := ran_perform ev x.1 x.2
  obtain ⟨hafter, hroom⟩ := (h.prepare ev).moves hmoves
  rw [← hframes] at hafter hroom
  refine ⟨hafter, fun hlt => ?_⟩
  have hwindow := hafter.window_eq
  have hpos := hroom hlt
  change 0 ≤ (Session.after x ev).1.remoteIncomingWindow at hpos
  change (Session.after x ev).1.remoteIncomingWindow =
    _ - (countFrom base (Session.after x ev).2.frames : Int) at hwindow
  omega

theorem Windowed.run {limit : Int} {x : Session × Recorder κ}
    (h : Windowed base limit x.1 x.2.frames) (evs : List (Event κ)) :
    Windowed base (limitAfter base evs x limit) (run evs x).1 (run evs x).2.frames := by
  induction evs generalizing x limit with
  | nil => exact h
  | cons ev evs ih => exact ih (h.after ev).1

theorem isDelivery_after {limit : Int} {x : Session × Recorder κ}
    (h : Windowed base limit x.1 x.2.frames) (ev : Event κ) :
    ∃ ts, transfersOf (after x ev).2.frames = transfersOf x.2.frames ++ ts ∧
      IsDelivery (UInt32.ofNat (countFrom base x.2.frames)) ts := by
  obtain ⟨ps, -, hframes, htalk, -⟩ := ran_perform ev x.1 x.2
  refine ⟨transfersOf (ps.map ((ev.prepare x.1).channel, ·)), ?_, ?_⟩
  · change transfersOf (stateAfter (ev.perform x)).2.frames = _
    rw [hframes, transfersOf_append]
  · rw [← h.next_eq]
    exact isDelivery_of_talk _ htalk

/-- In every state of a session the next transfer id is the count of its transfers, up to wrapping,
and the peer's window is what is left up to the limit.  An event in which transfers go out ends with
a count within the limit.  Its transfers are one delivery, with the transfer id of the first as
delivery id, and this id is what a call reports. -/
theorem window_of_run (o : Origin κ) (evs : List (Event κ)) :
    let base := o.settings.nextOutgoingId
    let x := run evs o.start
    let count := countFrom base x.2.frames
    let limit := limitAfter base evs o.start base.toNat
    x.1.nextOutgoingId = UInt32.ofNat count ∧
    x.1.remoteIncomingWindow = limit - count ∧
    (∀ ev : Event κ, count < countFrom base (after x ev).2.frames →
      (countFrom base (after x ev).2.frames : Int) ≤ ev.limit count limit) ∧
    (∀ ev : Event κ, ∃ ts, transfersOf (after x ev).2.frames = transfersOf x.2.frames ++ ts ∧
      IsDelivery (UInt32.ofNat count) ts) ∧
    (∀ t id, sentId (sendDelivery t x) = some id → id = UInt32.ofNat count ∧
      count < countFrom base (stateAfter (sendDelivery t x)).2.frames) ∧
    (∀ now name payload settled id, sentId (send now name payload settled x) = some id →
      id = UInt32.ofNat count ∧
      count < countFrom base (stateAfter (send now name payload settled x)).2.frames) := by
  intro base x count limit
  have h : Windowed base limit x.1 x.2.frames := (windowed_start o).run evs
  refine ⟨h.next_eq, h.window_eq, fun ev => (h.after ev).2, isDelivery_after h, ?_, ?_⟩
  · intro t id
    exact h.reported ((runs_sendDelivery t x.1).mono fun _ _ hs' => hs'.2)
  · intro now name payload settled id
    exact h.reported (runs_send now name payload settled x.1)

end

end Amqp.Session
