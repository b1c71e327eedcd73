import Amqp.Performative.Splitting
import Amqp.Proofs.Link.Granting
import Amqp.Proofs.Link.Place

/-!
# Credit between the ends of a link

A `Pair` is the two attached ends of a link with what is on the way between them: transfers and
flows to the receiving end, and flows to the sending end.  It also counts deliveries without
wrapping: `sent` at the sending end, `taken` at the receiving end, and `advertised`, the greatest
limit that the receiving end has announced.

`Agrees` holds the two ends together.  Flows that are on the way announce limits from the past of
the receiving end (`Offers`), and what is on the way to it leads from its count to that of the
sending end (`Leads`).  Every step keeps it (`Agrees.step`).
-/

namespace Amqp.Link

/-! ## Counts that wrap around -/

theorem toNat_sub_ofNat {m n : Nat} (h : m ≤ n) (h' : n < m + 0x100000000) :
    (UInt32.ofNat n - UInt32.ofNat m).toNat = n - m := by
  have hm : (UInt32.ofNat m).toNat = m % 0x100000000 := UInt32.toNat_ofNat'
  have hn : (UInt32.ofNat n).toNat = n % 0x100000000 := UInt32.toNat_ofNat'
  rw [UInt32.toNat_sub, hm, hn]
  omega

/-- Of a limit beyond an older count of the receiver there remains what the sender has not used. -/
theorem toNat_remainingCredit {count sent : Nat} {credit : UInt32} (h : count ≤ sent)
    (h' : sent < count + 0x80000000) (hcredit : credit.toNat < 0x80000000) :
    (Sender.remainingCredit (UInt32.ofNat count) credit (UInt32.ofNat sent)).toNat =
      count + credit.toNat - sent := by
  have hunseen := toNat_sub_ofNat h (by omega)
  have hleft : credit.toNat - (UInt32.ofNat sent - UInt32.ofNat count).toNat < 0x80000000 := by
    omega
  rw [Sender.toNat_remainingCredit_of_lt (by omega), Sender.left_of_lt hleft, hunseen]
  omega

/-! ## Pairs -/

/-- What is on the way to the receiving end. -/
inductive Upward where
  | transfer (t : Transfer)
  | flow (f : Flow)

/-- Requests that may be put on a flow of the receiving end. -/
structure Mark where
  drain : Bool := false
  echo : Bool := false

/-- The flow with the requests of a mark. -/
def Mark.on (m : Mark) (f : Flow) : Flow :=
  { f with drain := f.drain || m.drain, echo := f.echo || m.echo }

/-- The flows among outputs. -/
def flowsOf (outputs : List Output) : List Flow :=
  outputs.filterMap fun o =>
    match o with
    | .flow f => some f
    | _ => none

/-- Both ends of a link, what is on the way between them, and counts that do not wrap. -/
structure Pair where
  sender : Sender
  receiver : Receiver
  up : List Upward := []
  down : List Flow := []
  sent : Nat
  taken : Nat
  advertised : Nat

namespace Pair

/-- The pair after a change of the sending end, which puts more on the way. -/
def withSender (v : Sender) (more : List Upward) (p : Pair) : Pair :=
  { p with
    sender := v
    up := p.up ++ more
    sent := p.sent + (v.endpoint.deliveryCount - p.sender.endpoint.deliveryCount).toNat }

/-- The pair after a change of the receiving end.  Its flows are marked and put on the way. -/
def withReceiver (m : Mark) (change : Receiver × List Output) (p : Pair) : Pair :=
  let flows := flowsOf change.2
  let taken :=
    p.taken + (change.1.endpoint.deliveryCount - p.receiver.endpoint.deliveryCount).toNat
  { p with
    receiver := change.1
    down := p.down ++ flows.map m.on
    taken
    advertised := flows.foldl (fun limit f => max limit (taken + (f.linkCredit.getD 0).toNat))
      p.advertised }

/-- Credit that may be granted. -/
abbrev Credit := { credit : UInt32 // credit.toNat < 0x80000000 }

/-- What can happen: the sending end sends a delivery in any pieces, an end takes the oldest of what
is on the way to it, or the receiving end refills its credit or grants some. -/
inductive Step where
  | send (deliveryId : UInt32) (first : Bytes) (rest : List Bytes) (settled : Bool) (now : Nat)
  | takeUp (m : Mark)
  | takeDown
  | refill (m : Mark)
  | grant (credit : Credit) (m : Mark)

/-- The transfers of a delivery in pieces. -/
def parts (deliveryId : UInt32) (first : Bytes) (rest : List Bytes) (t : Transfer) :
    List Transfer :=
  { t with deliveryId := some deliveryId, more := !rest.isEmpty, payload := first } ::
    Transfer.continuations t.handle false rest

/-- Sends a delivery if there is credit. -/
def send (deliveryId : UInt32) (first : Bytes) (rest : List Bytes) (settled : Bool) (now : Nat)
    (p : Pair) : Pair :=
  match p.sender.draft (first ++ rest.flatten) settled with
  | .ok (some t, v) =>
    p.withSender (v.book deliveryId t now) ((parts deliveryId first rest t).map .transfer)
  | _ => p

/-- Lets the receiving end take the oldest of what is on the way to it. -/
def takeUp (m : Mark) (p : Pair) : Pair :=
  match p.up with
  | [] => p
  | .transfer t :: up =>
    match p.receiver.onTransfer t with
    | .ok change => { p with up }.withReceiver m change
    | .error _ => { p with up }
  | .flow f :: up => { p with up }.withReceiver m (p.receiver.onFlow f)

/-- Lets the sending end take the oldest flow on the way to it. -/
def takeDown (p : Pair) : Pair :=
  match p.down with
  | [] => p
  | f :: down =>
    let (v, outputs) := p.sender.onFlow f
    { p with down }.withSender v ((flowsOf outputs).map .flow)

/-- Lets the receiving end grant credit. -/
def grant (credit : UInt32) (m : Mark) (p : Pair) : Pair :=
  match p.receiver.grant credit with
  | .ok change => p.withReceiver m change
  | .error _ => p

/-- The pair after a step. -/
def step (p : Pair) : Step → Pair
  | .send deliveryId first rest settled now => p.send deliveryId first rest settled now
  | .takeUp m => p.takeUp m
  | .takeDown => p.takeDown
  | .refill m => p.withReceiver m p.receiver.refill
  | .grant credit m => p.grant credit.1 m

/-- The pair after steps in a row. -/
def run (p : Pair) (steps : List Step) : Pair := steps.foldl step p

/-- Two ends right after their attach: the prefetch credit, if there is any, is on the way. -/
def start (sender : Sender) (receiver : Receiver) (m : Mark) : Pair :=
  let count := sender.endpoint.deliveryCount.toNat
  ({ sender, receiver, sent := count, taken := count, advertised := count } : Pair).withReceiver m
    receiver.refill

end Pair

/-! ## What is on the way -/

/-- `Offers taken last advertised low fs`: the flows `fs`, the oldest first, have counts that the
receiving end has had from `low` up to `taken`.  Their limits are within `advertised`, and the last
one is `last`. -/
inductive Offers (taken last advertised : Nat) : Nat → List Flow → Prop
  | nil {low : Nat} (h : low ≤ taken) : Offers taken last advertised low []
  | cons {low count : Nat} {f : Flow} {credit : UInt32} {fs : List Flow} (hlow : low ≤ count)
      (hcount : f.deliveryCount = some (UInt32.ofNat count)) (hcredit : f.linkCredit = some credit)
      (hbound : credit.toNat < 0x80000000) (hlimit : count + credit.toNat ≤ advertised)
      (hlast : fs = [] → count + credit.toNat = last) (h : Offers taken last advertised count fs) :
      Offers taken last advertised low (f :: fs)

/-- `Leads isInside taken us sent`: after the transfers and flows `us`, the oldest first, a
receiving end with the count `taken` has the count `sent`.  `isInside` tells whether it has a part
of a delivery already, which counts no more. -/
inductive Leads : Bool → Nat → List Upward → Nat → Prop
  | done (n : Nat) : Leads false n [] n
  | first {n m : Nat} {t : Transfer} {us : List Upward} (hid : t.deliveryId ≠ none)
      (hkept : t.aborted = false) (h : Leads t.more (n + 1) us m) :
      Leads false n (.transfer t :: us) m
  | next {n m : Nat} {t : Transfer} {us : List Upward} (hkept : t.aborted = false)
      (h : Leads t.more n us m) : Leads true n (.transfer t :: us) m
  | flow {isInside : Bool} {n k m : Nat} {f : Flow} {us : List Upward} (hle : n ≤ k)
      (hcount : f.deliveryCount = some (UInt32.ofNat k)) (hecho : f.echo = false)
      (h : Leads isInside k us m) : Leads isInside n (.flow f :: us) m

namespace Offers

variable {taken last advertised low : Nat} {fs : List Flow}

theorem low_le (h : Offers taken last advertised low fs) : low ≤ taken := by
  induction h with
  | nil h => exact h
  | cons hlow _ _ _ _ _ _ ih => exact Nat.le_trans hlow ih

theorem mono {taken' : Nat} (h : Offers taken last advertised low fs) (htaken : taken ≤ taken') :
    Offers taken' last advertised low fs := by
  induction h with
  | nil h => exact .nil (Nat.le_trans h htaken)
  | cons hlow hcount hcredit hbound hlimit hlast _ ih =>
    exact .cons hlow hcount hcredit hbound hlimit hlast ih

/-- A new flow announces the present count and a limit of its own. -/
theorem snoc {f : Flow} {credit : UInt32} (h : Offers taken last advertised low fs)
    (hcount : f.deliveryCount = some (UInt32.ofNat taken)) (hcredit : f.linkCredit = some credit)
    (hbound : credit.toNat < 0x80000000) :
    Offers taken (taken + credit.toNat) (max advertised (taken + credit.toNat)) low
      (fs ++ [f]) := by
  induction h with
  | nil h =>
    exact .cons h hcount hcredit hbound (Nat.le_max_right _ _) (fun _ => rfl) (.nil (Nat.le_refl _))
  | cons hlow hcount' hcredit' hbound' hlimit' _ _ ih =>
    exact .cons hlow hcount' hcredit' hbound' (Nat.le_trans hlimit' (Nat.le_max_left _ _))
      (fun hnil => absurd hnil (by simp)) ih

end Offers

namespace Leads

variable {isInside : Bool} {n m k : Nat} {us vs : List Upward}

theorem le (h : Leads isInside n us m) : n ≤ m := by
  induction h with
  | done => exact Nat.le_refl _
  | first _ _ _ ih => exact Nat.le_of_succ_le ih
  | next _ _ ih => exact ih
  | flow hle _ _ _ ih => exact Nat.le_trans hle ih

theorem append (h : Leads isInside n us m) (h' : Leads false m vs k) :
    Leads isInside n (us ++ vs) k := by
  induction h with
  | done => exact h'
  | first hid hkept _ ih => exact .first hid hkept (ih h')
  | next hkept _ ih => exact .next hkept (ih h')
  | flow hle hcount hecho _ ih => exact .flow hle hcount hecho (ih h')

theorem of_nil (h : Leads isInside n [] m) : isInside = false ∧ n = m := by
  cases h
  exact ⟨rfl, rfl⟩

theorem of_transfer {t : Transfer} (h : Leads isInside n (.transfer t :: us) m) :
    t.aborted = false ∧ (isInside = false → t.deliveryId ≠ none) ∧
      Leads t.more (if isInside then n else n + 1) us m := by
  cases h with
  | first hid hkept h => exact ⟨hkept, fun _ => hid, h⟩
  | next hkept h => exact ⟨hkept, fun hout => absurd hout (by decide), h⟩

theorem of_flow {f : Flow} (h : Leads isInside n (.flow f :: us) m) :
    ∃ k, n ≤ k ∧ f.deliveryCount = some (UInt32.ofNat k) ∧ f.echo = false ∧
      Leads isInside k us m := by
  cases h with
  | flow hle hcount hecho h => exact ⟨_, hle, hcount, hecho, h⟩

theorem continuations (handle : UInt32) (n : Nat) {ps : List Bytes} (hps : ps ≠ []) :
    Leads true n ((Transfer.continuations handle false ps).map .transfer) n := by
  induction ps with
  | nil => exact absurd rfl hps
  | cons p ps ih =>
    cases ps with
    | nil => exact .next rfl (.done n)
    | cons q ps => exact .next rfl (ih (by simp))

/-- The parts of a delivery count one. -/
theorem parts (deliveryId : UInt32) (first : Bytes) (rest : List Bytes) {t : Transfer}
    (hkept : t.aborted = false) (n : Nat) :
    Leads false n ((Pair.parts deliveryId first rest t).map .transfer) (n + 1) := by
  cases rest with
  | nil => exact .first (by simp) hkept (.done (n + 1))
  | cons p ps => exact .first (by simp) hkept (continuations t.handle (n + 1) (by simp))

end Leads

/-! ## What an end does to its counts -/

theorem toNat_linkCredit_count (e : Endpoint) :
    e.count.linkCredit.toNat = e.linkCredit.toNat - 1 := toNat_countDown e.linkCredit

theorem Sender.endpoint_book (deliveryId : UInt32) (t : Transfer) (now : Nat) (s : Sender) :
    (s.book deliveryId t now).endpoint = s.endpoint.count := by
  unfold book
  by_cases hsettled : t.settled = some true
  · rw [if_pos hsettled]
    rfl
  · rw [if_neg hsettled]
    rfl

/-- Upon a flow of the receiving end, a sending end learns its credit, or uses it up without
sending.  It announces nothing but its own count. -/
theorem Sender.onFlow_counts {f : Flow} {count credit : UInt32} {n : Nat} {s : Sender}
    (hsent : s.endpoint.deliveryCount = UInt32.ofNat n) (hcount : f.deliveryCount = some count)
    (hcredit : f.linkCredit = some credit) :
    ∃ (v : Sender) (outputs : List Output) (used : Nat), s.onFlow f = (v, outputs) ∧
      v.endpoint.state = s.endpoint.state ∧ v.endpoint.deliveryCount = UInt32.ofNat (n + used) ∧
      used + v.endpoint.linkCredit.toNat =
        (remainingCredit count credit (UInt32.ofNat n)).toNat ∧
      Leads false n ((flowsOf outputs).map .flow) (n + used) := by
  unfold onFlow
  rw [hcount, hcredit]
  dsimp only [Option.getD_some]
  rw [hsent]
  generalize remainingCredit count credit (UInt32.ofNat n) = left
  split_ifs
  · -- All credit counts as used, and the flow says so.
    have hused : UInt32.ofNat n + left = UInt32.ofNat (n + left.toNat) := by
      rw [UInt32.ofNat_add, UInt32.ofNat_toNat]
    exact ⟨_, _, left.toNat, rfl, rfl, hused, rfl,
      .flow (Nat.le_add_right _ _) (congrArg some hused) rfl (.done _)⟩
  · exact ⟨_, _, 0, rfl, rfl, rfl, Nat.zero_add _, .flow (Nat.le_refl _) rfl rfl (.done _)⟩
  · exact ⟨_, _, 0, rfl, rfl, rfl, Nat.zero_add _, .done _⟩

namespace Receiver

theorem flowsOf_queue (m : Message) (r : Receiver) : flowsOf (r.queue m).2 = [] := by
  unfold queue
  split_ifs <;> rfl

theorem queue_keeps (m : Message) (r : Receiver) :
    (r.queue m).1.prefetch = r.prefetch ∧ (r.queue m).1.inProgress = r.inProgress := by
  unfold queue
  split_ifs <;> exact ⟨rfl, rfl⟩

/-- A transfer counts if it begins a delivery.  What is announced is a refill of the credit. -/
theorem onTransfer_refill {t : Transfer} {r : Receiver} (hstate : r.endpoint.state = .attached)
    (hid : r.inProgress.isSome = false → t.deliveryId ≠ none) (hkept : t.aborted = false)
    (hlimit : ∀ size, Within r.endpoint.maxMessageSize size) :
    ∃ (r' : Receiver) (outputs : List Output),
      r.onTransfer t = .ok (r'.refill.1, outputs ++ r'.refill.2) ∧ flowsOf outputs = [] ∧
      r'.prefetch = r.prefetch ∧ r'.inProgress.isSome = t.more ∧
      r'.endpoint = if r.inProgress.isSome then r.endpoint else r.endpoint.count := by
  have hpart : ∃ m, r.inProgress.or (Message.start t) = some m := by
    cases hpart : r.inProgress with
    | some m => exact ⟨m, rfl⟩
    | none =>
      obtain ⟨id, hid⟩ := Option.ne_none_iff_exists'.1 (hid (by rw [hpart]; rfl))
      exact ⟨_, congrArg (Option.map _) hid⟩
  obtain ⟨m, hpart⟩ := hpart
  have hsize : r.exceedsLimit (m.extend t).payload.length = none := exceedsLimit_eq_none (hlimit _)
  cases hmore : t.more with
  | true =>
    exact ⟨_, [], onTransfer_of_more (not_isDetaching hstate) hpart hkept hsize hmore, rfl, rfl,
      rfl, rfl⟩
  | false =>
    obtain ⟨hprefetch, hnone⟩ := queue_keeps (m.extend t) r.opened
    exact ⟨_, _, onTransfer_of_last (not_isDetaching hstate) hpart hkept hsize hmore,
      flowsOf_queue _ _, hprefetch, congrArg Option.isSome hnone, endpoint_queue _ _⟩

/-- A flow whose count is ahead takes the receiving end there, and uses up credit. -/
theorem onFlow_counts {f : Flow} {n k : Nat} {r : Receiver}
    (hcount : r.endpoint.deliveryCount = UInt32.ofNat n)
    (hflow : f.deliveryCount = some (UInt32.ofNat k)) (hecho : f.echo = false) (hle : n ≤ k)
    (hlt : k < n + 0x80000000) :
    ∃ e : Endpoint, r.onFlow f = ({ r with endpoint := e }, []) ∧
      e.state = r.endpoint.state ∧ e.maxMessageSize = r.endpoint.maxMessageSize ∧
      e.deliveryCount = UInt32.ofNat k ∧
      e.linkCredit.toNat = r.endpoint.linkCredit.toNat - (k - n) := by
  have hadvance : (UInt32.ofNat k - r.endpoint.deliveryCount).toNat = k - n := by
    rw [hcount]
    exact toNat_sub_ofNat hle (by omega)
  have hhalf : (0x80000000 : UInt32).toNat = 0x80000000 := rfl
  unfold onFlow
  rw [hflow, hecho]
  dsimp only
  generalize UInt32.ofNat k - r.endpoint.deliveryCount = advance at hadvance
  by_cases hahead : 0 < advance ∧ advance < 0x80000000
  · rw [if_pos hahead]
    refine ⟨_, rfl, rfl, rfl, rfl, ?_⟩
    dsimp only
    split_ifs with hroom
    · rw [UInt32.toNat_sub_of_le _ _ hroom, hadvance]
    · have hover := UInt32.lt_iff_toNat_lt.1 (UInt32.not_le.1 hroom)
      have hzero : (0 : UInt32).toNat = 0 := rfl
      omega
  · rw [if_neg hahead]
    have hsame : k = n := by
      have hbound : advance < 0x80000000 := UInt32.lt_iff_toNat_lt.2 (by omega)
      have hnone : ¬ 0 < advance := fun hpos => hahead ⟨hpos, hbound⟩
      rw [UInt32.lt_iff_toNat_lt] at hnone
      have hzero : (0 : UInt32).toNat = 0 := rfl
      omega
    refine ⟨r.endpoint, rfl, rfl, rfl, ?_, ?_⟩
    · rw [hcount, hsame]
    · omega

end Receiver

/-- Two changes of the receiving end in a row are one change if the later one keeps its count. -/
theorem Pair.withReceiver_append (m : Mark) {r r' : Receiver} {outputs outputs' : List Output}
    (hcount : r'.endpoint.deliveryCount = r.endpoint.deliveryCount) (p : Pair) :
    p.withReceiver m (r', outputs ++ outputs') =
      (p.withReceiver m (r, outputs)).withReceiver m (r', outputs') := by
  have hflows : flowsOf (outputs ++ outputs') = flowsOf outputs ++ flowsOf outputs' :=
    List.filterMap_append
  have htaken : (r'.endpoint.deliveryCount - r.endpoint.deliveryCount).toNat = 0 := by
    rw [hcount, UInt32.sub_self]
    rfl
  unfold Pair.withReceiver
  dsimp only
  rw [hflows, htaken, hcount, List.map_append, List.append_assoc, List.foldl_append]
  rfl

/-! ## Agreement -/

/-- The invariant of a pair.  All flows that the sending end has still to take come from a count of
at least `low`, and `last` is the limit that the receiving end has announced last. -/
structure Agrees (p : Pair) (low last : Nat) : Prop where
  sender_attached : p.sender.endpoint.state = .attached
  receiver_attached : p.receiver.endpoint.state = .attached
  unlimited : ∀ size, Within p.receiver.endpoint.maxMessageSize size
  prefetch_lt : p.receiver.prefetch.toNat < 0x80000000
  sent_eq : p.sender.endpoint.deliveryCount = UInt32.ofNat p.sent
  taken_eq : p.receiver.endpoint.deliveryCount = UInt32.ofNat p.taken
  reach_lt : p.sent + p.sender.endpoint.linkCredit.toNat < low + 0x80000000
  reach_le : p.sent + p.sender.endpoint.linkCredit.toNat ≤ p.advertised
  credit_eq : p.receiver.endpoint.linkCredit.toNat = last - p.taken
  idle : p.down = [] → p.sender.endpoint.linkCredit.toNat = last - p.sent
  offers : Offers p.taken last p.advertised low p.down
  leads : Leads p.receiver.inProgress.isSome p.taken p.up p.sent

namespace Agrees

variable {p : Pair} {low last : Nat}

theorem taken_le (h : Agrees p low last) : p.taken ≤ p.sent := h.leads.le

/-- A sending end counts `n` deliveries more and puts on the way what leads there. -/
theorem withSender {v : Sender} {more : List Upward} {down : List Flow} {n low' : Nat}
    (h : Agrees p low last) (hn : n < 0x100000000) (hattached : v.endpoint.state = .attached)
    (hcount : v.endpoint.deliveryCount = UInt32.ofNat (p.sent + n))
    (hreach : p.sent + n + v.endpoint.linkCredit.toNat < low' + 0x80000000)
    (hlimit : p.sent + n + v.endpoint.linkCredit.toNat ≤ p.advertised)
    (hidle : down = [] → v.endpoint.linkCredit.toNat = last - (p.sent + n))
    (hoffers : Offers p.taken last p.advertised low' down)
    (hleads : Leads false p.sent more (p.sent + n)) :
    Agrees ({ p with down }.withSender v more) low' last := by
  have hsent : ({ p with down }.withSender v more).sent = p.sent + n := by
    change p.sent + (v.endpoint.deliveryCount - p.sender.endpoint.deliveryCount).toNat = _
    rw [hcount, h.sent_eq, toNat_sub_ofNat (by omega) (by omega)]
    omega
  constructor
  · exact hattached
  · exact h.receiver_attached
  · exact h.unlimited
  · exact h.prefetch_lt
  · rw [hsent]
    exact hcount
  · exact h.taken_eq
  · rw [hsent]
    exact hreach
  · rw [hsent]
    exact hlimit
  · exact h.credit_eq
  · rw [hsent]
    exact hidle
  · exact hoffers
  · rw [hsent]
    exact h.leads.append hleads

/-- A receiving end counts `n` deliveries more and announces nothing. -/
theorem withReceiver {r : Receiver} {outputs : List Output} {up : List Upward} {n : Nat}
    (h : Agrees p low last) (m : Mark) (hn : n < 0x100000000)
    (hattached : r.endpoint.state = .attached)
    (hunlimited : ∀ size, Within r.endpoint.maxMessageSize size)
    (hprefetch : r.prefetch.toNat < 0x80000000)
    (hcount : r.endpoint.deliveryCount = UInt32.ofNat (p.taken + n))
    (hcredit : r.endpoint.linkCredit.toNat = last - (p.taken + n)) (hnone : flowsOf outputs = [])
    (hleads : Leads r.inProgress.isSome (p.taken + n) up p.sent) :
    Agrees ({ p with up }.withReceiver m (r, outputs)) low last := by
  have htaken : ({ p with up }.withReceiver m (r, outputs)).taken = p.taken + n := by
    change p.taken + (r.endpoint.deliveryCount - p.receiver.endpoint.deliveryCount).toNat = _
    rw [hcount, h.taken_eq, toNat_sub_ofNat (by omega) (by omega)]
    omega
  have hdown : ({ p with up }.withReceiver m (r, outputs)).down = p.down := by
    change p.down ++ (flowsOf outputs).map m.on = _
    rw [hnone, List.map_nil, List.append_nil]
  have hadvertised : ({ p with up }.withReceiver m (r, outputs)).advertised = p.advertised := by
    unfold Pair.withReceiver
    dsimp only
    rw [hnone]
    rfl
  constructor
  · exact h.sender_attached
  · exact hattached
  · exact hunlimited
  · exact hprefetch
  · exact h.sent_eq
  · rw [htaken]
    exact hcount
  · exact h.reach_lt
  · rw [hadvertised]
    exact h.reach_le
  · rw [htaken]
    exact hcredit
  · rw [hdown]
    exact h.idle
  · rw [htaken, hdown, hadvertised]
    exact h.offers.mono (Nat.le_add_right _ _)
  · rw [htaken]
    exact hleads

/-- A receiving end announces a new credit. -/
theorem announce (h : Agrees p low last) {credit : UInt32} (hcredit : credit.toNat < 0x80000000)
    (m : Mark) :
    let e := { p.receiver.endpoint with linkCredit := credit }
    Agrees (p.withReceiver m ({ p.receiver with endpoint := e }, [.flow e.toFlow])) low
      (p.taken + credit.toNat) := by
  intro e
  have htaken : (p.withReceiver m ({ p.receiver with endpoint := e }, [.flow e.toFlow])).taken =
      p.taken := by
    change p.taken + (e.deliveryCount - e.deliveryCount).toNat = _
    rw [UInt32.sub_self]
    rfl
  have hadvertised : (p.withReceiver m ({ p.receiver with endpoint := e },
      [.flow e.toFlow])).advertised = max p.advertised (p.taken + credit.toNat) := by
    change max p.advertised (p.taken + (e.deliveryCount - e.deliveryCount).toNat + _) = _
    rw [UInt32.sub_self]
    rfl
  constructor
  · exact h.sender_attached
  · exact h.receiver_attached
  · exact h.unlimited
  · exact h.prefetch_lt
  · exact h.sent_eq
  · rw [htaken]
    exact h.taken_eq
  · exact h.reach_lt
  · rw [hadvertised]
    exact Nat.le_trans h.reach_le (Nat.le_max_left _ _)
  · rw [htaken]
    exact (Nat.add_sub_cancel_left _ _).symm
  · exact fun hnil => absurd hnil (by simp [Pair.withReceiver, flowsOf])
  · rw [htaken, hadvertised]
    exact h.offers.snoc (congrArg some h.taken_eq) rfl hcredit
  · rw [htaken]
    exact h.leads

/-! ### Steps -/

theorem send (h : Agrees p low last) (deliveryId : UInt32) (first : Bytes) (rest : List Bytes)
    (settled : Bool) (now : Nat) : Agrees (p.send deliveryId first rest settled now) low last := by
  unfold Pair.send
  cases hdraft : p.sender.draft (first ++ rest.flatten) settled with
  | error f => exact h
  | ok drafted =>
    obtain ⟨t, v⟩ := drafted
    obtain ⟨rfl, rfl⟩ | ⟨hcredit, rfl, rfl⟩ := Sender.draft_cases hdraft
    · exact h
    have hpos : 0 < p.sender.endpoint.linkCredit.toNat :=
      Nat.pos_of_ne_zero fun hzero => hcredit (UInt32.toNat_inj.1 hzero)
    have hreach := h.reach_lt
    have hlimit := h.reach_le
    have hleft := toNat_linkCredit_count p.sender.endpoint
    refine h.withSender (n := 1) (by omega) ?_ ?_ ?_ ?_ ?_ h.offers (.parts _ _ _ rfl _)
    · rw [Sender.endpoint_book]
      exact h.sender_attached
    · rw [Sender.endpoint_book, UInt32.ofNat_add, ← h.sent_eq]
      rfl
    · rw [Sender.endpoint_book]
      change _ + p.sender.endpoint.count.linkCredit.toNat < _
      omega
    · rw [Sender.endpoint_book]
      change _ + p.sender.endpoint.count.linkCredit.toNat ≤ _
      omega
    · intro hnil
      have hidle := h.idle hnil
      rw [Sender.endpoint_book]
      change p.sender.endpoint.count.linkCredit.toNat = _
      omega

theorem refill (h : Agrees p low last) (m : Mark) :
    ∃ last', Agrees (p.withReceiver m p.receiver.refill) low last' := by
  unfold Receiver.refill
  split_ifs with hempty
  · exact ⟨_, h.announce h.prefetch_lt m⟩
  · refine ⟨last, h.withReceiver (n := 0) m (by omega) h.receiver_attached h.unlimited
      h.prefetch_lt h.taken_eq h.credit_eq rfl h.leads⟩

theorem grant (h : Agrees p low last) (credit : Pair.Credit) (m : Mark) :
    ∃ last', Agrees (p.grant credit.1 m) low last' := by
  unfold Pair.grant Receiver.grant
  rw [if_neg fun hstate => hstate h.receiver_attached]
  exact ⟨_, h.announce credit.2 m⟩

theorem takeDown (h : Agrees p low last) : ∃ low', Agrees p.takeDown low' last := by
  have hoffers := h.offers
  unfold Pair.takeDown
  cases hdown : p.down with
  | nil => exact ⟨low, h⟩
  | cons f down =>
    rw [hdown] at hoffers
    cases hoffers with
    | @cons _ count _ credit _ hlow hcount hcredit hbound hlimit hlast hrest =>
      have hreach := h.reach_lt
      have hreach' := h.reach_le
      have htaken := h.taken_le
      have hbehind := hrest.low_le
      obtain ⟨v, outputs, used, hchange, hstate, hend, hleft, hleads⟩ :=
        Sender.onFlow_counts h.sent_eq hcount hcredit
      -- There is left what the announced limit lies beyond the count.
      rw [toNat_remainingCredit (by omega) (by omega) hbound] at hleft
      dsimp only
      rw [hchange]
      dsimp only
      refine ⟨count, h.withSender (n := used) (by omega) ?_ hend ?_ ?_ ?_ hrest hleads⟩
      · rw [hstate]
        exact h.sender_attached
      · omega
      · omega
      · intro hnil
        have hannounced := hlast hnil
        omega

theorem takeUp (h : Agrees p low last) (m : Mark) : ∃ last', Agrees (p.takeUp m) low last' := by
  have hleads := h.leads
  have hreach := h.reach_lt
  have hbehind := h.offers.low_le
  have hattached := h.receiver_attached
  have hunlimited := h.unlimited
  have hready := h.prefetch_lt
  have hcount := h.taken_eq
  have hcredit := h.credit_eq
  unfold Pair.takeUp
  cases hup : p.up with
  | nil => exact ⟨last, h⟩
  | cons u up =>
    rw [hup] at hleads
    cases u with
    | transfer t =>
      obtain ⟨hkept, hid, hrest⟩ := hleads.of_transfer
      obtain ⟨r, outputs, hr, hnone, hprefetch, hmore, hend⟩ :=
        Receiver.onTransfer_refill h.receiver_attached hid hkept h.unlimited
      have hstart : Agrees ({ p with up }.withReceiver m (r, outputs)) low last := by
        rw [← hmore] at hrest
        rw [← hprefetch] at hready
        by_cases hpart : p.receiver.inProgress.isSome = true
        · -- One more part of the delivery in progress does not count.
          rw [if_pos hpart] at hend hrest
          rw [← hend] at hattached hunlimited hcount hcredit
          exact h.withReceiver (n := 0) m (by omega) hattached hunlimited hready hcount hcredit
            hnone hrest
        · rw [if_neg hpart] at hend hrest
          have hleft := toNat_linkCredit_count p.receiver.endpoint
          rw [← hend] at hleft
          refine h.withReceiver (n := 1) m (by omega) ?_ ?_ hready ?_ (by omega) hnone hrest
          · rw [hend]
            exact hattached
          · rw [hend]
            exact hunlimited
          · rw [hend, UInt32.ofNat_add, ← hcount]
            rfl
      have hsame : r.refill.1.endpoint.deliveryCount = r.endpoint.deliveryCount := by
        unfold Receiver.refill
        split_ifs <;> rfl
      dsimp only
      rw [hr]
      dsimp only
      rw [Pair.withReceiver_append m hsame]
      exact hstart.refill m
    | flow f =>
      obtain ⟨k, hle, hflow, hecho, hrest⟩ := hleads.of_flow
      have hlater := hrest.le
      obtain ⟨e, hchange, hstate, hsize, hend, hleft⟩ :=
        Receiver.onFlow_counts hcount hflow hecho hle (by omega)
      have hadvance : p.taken + (k - p.taken) = k := by omega
      rw [← hstate] at hattached
      rw [← hsize] at hunlimited
      rw [← hadvance] at hend hrest
      dsimp only
      rw [hchange]
      exact ⟨last, h.withReceiver (n := k - p.taken) m (by omega) hattached hunlimited hready hend
        (by dsimp only; omega) rfl hrest⟩

theorem step (h : Agrees p low last) (s : Pair.Step) :
    ∃ low' last', Agrees (p.step s) low' last' := by
  cases s with
  | send deliveryId first rest settled now =>
    exact ⟨low, last, h.send deliveryId first rest settled now⟩
  | takeUp m => exact ⟨low, h.takeUp m⟩
  | takeDown =>
    obtain ⟨low', h'⟩ := h.takeDown
    exact ⟨low', last, h'⟩
  | refill m => exact ⟨low, h.refill m⟩
  | grant credit m => exact ⟨low, h.grant credit m⟩

theorem run (h : Agrees p low last) (steps : List Pair.Step) :
    ∃ low' last', Agrees (p.run steps) low' last' := by
  induction steps generalizing p low last with
  | nil => exact ⟨low, last, h⟩
  | cons s steps ih =>
    obtain ⟨low', last', h'⟩ := h.step s
    exact ih h'

/-- With nothing on the way, both ends have the same count and the same credit. -/
theorem same (h : Agrees p low last) (hup : p.up = []) (hdown : p.down = []) :
    p.receiver.endpoint.deliveryCount = p.sender.endpoint.deliveryCount ∧
      p.receiver.endpoint.linkCredit = p.sender.endpoint.linkCredit := by
  have hleads := h.leads
  rw [hup] at hleads
  have hcount : p.taken = p.sent := hleads.of_nil.2
  have hcredit := h.credit_eq
  rw [hcount, ← h.idle hdown] at hcredit
  exact ⟨by rw [h.taken_eq, h.sent_eq, hcount], UInt32.toNat_inj.1 hcredit⟩

end Agrees

/-! ## Runs from the attach -/

/-- Two ends right after their attach, before the receiving end grants its prefetch credit. -/
structure Attached (v : Sender) (r : Receiver) : Prop where
  sender_attached : v.endpoint.state = .attached
  receiver_attached : r.endpoint.state = .attached
  count_eq : r.endpoint.deliveryCount = v.endpoint.deliveryCount
  sender_credit : v.endpoint.linkCredit = 0
  receiver_credit : r.endpoint.linkCredit = 0
  between : r.inProgress = none
  unlimited : ∀ size, Within r.endpoint.maxMessageSize size
  prefetch_lt : r.prefetch.toNat < 0x80000000

namespace Attached

variable {v : Sender} {r : Receiver}

/-- Ends that exchange attaches are attached, and the receiving end goes on to its prefetch
credit. -/
theorem of_exchange (hsent : v.endpoint.state = .attachSent) (hrole : v.endpoint.role = .sender)
    (hcredit : v.endpoint.linkCredit = 0)
    (hstate : r.endpoint.state = .detached ∨ r.endpoint.state = .attachSent)
    (hbetween : r.inProgress = none) (hunlimited : ∀ size, Within r.endpoint.maxMessageSize size)
    (hprefetch : r.prefetch.toNat < 0x80000000) (answer : Attach) :
    ∃ (r' : Receiver) (outputs : List Output),
      r.onAttach v.endpoint.toAttach = (r'.refill.1, outputs ++ r'.refill.2) ∧
      Attached { v with endpoint := (v.endpoint.onAttach answer).1 } r' := by
  have hsender : (v.endpoint.onAttach answer).1.state = .attached := by
    unfold Endpoint.onAttach
    rw [hsent]
  have hkept : (v.endpoint.onAttach answer).1.deliveryCount = v.endpoint.deliveryCount ∧
      (v.endpoint.onAttach answer).1.linkCredit = v.endpoint.linkCredit := by
    unfold Endpoint.onAttach
    rw [hsent]
    exact ⟨rfl, rfl⟩
  have hrole' : v.endpoint.toAttach.role = .sender := hrole
  have hcount : v.endpoint.toAttach.initialDeliveryCount = some v.endpoint.deliveryCount := by
    unfold Endpoint.toAttach
    rw [hrole]
  unfold Receiver.onAttach
  rw [hrole', hcount]
  dsimp only
  rw [if_pos rfl]
  unfold Endpoint.onAttach
  rcases hstate with hstate | hstate
  all_goals
    rw [hstate]
    exact ⟨_, _, rfl, hsender, rfl, hkept.1.symm, hkept.2.trans hcredit, rfl, hbetween,
      hunlimited, hprefetch⟩

theorem agrees (h : Attached v r) (m : Mark) :
    ∃ last, Agrees (Pair.start v r m) v.endpoint.deliveryCount.toNat last := by
  have hcredit : v.endpoint.linkCredit.toNat = 0 := congrArg UInt32.toNat h.sender_credit
  have hcredit' : r.endpoint.linkCredit.toNat = 0 := congrArg UInt32.toNat h.receiver_credit
  refine @Agrees.refill _ _ v.endpoint.deliveryCount.toNat ?_ m
  constructor
  · exact h.sender_attached
  · exact h.receiver_attached
  · exact h.unlimited
  · exact h.prefetch_lt
  · exact UInt32.ofNat_toNat.symm
  · exact h.count_eq.trans UInt32.ofNat_toNat.symm
  · dsimp only
    omega
  · dsimp only
    omega
  · dsimp only
    omega
  · dsimp only
    omega
  · exact .nil (Nat.le_refl _)
  · rw [h.between]
    exact .done _

end Attached

/-- From the attach of a link on, the sending end never passes the greatest limit that the receiving
end has announced, also when the counts wrap around.  Whenever nothing is on the way, both ends have
the same count and the same credit. -/
theorem credit_of_run {v : Sender} {r : Receiver} (h : Attached v r) (m : Mark)
    (steps : List Pair.Step) :
    let p := (Pair.start v r m).run steps
    p.sender.endpoint.deliveryCount = UInt32.ofNat p.sent ∧
    p.receiver.endpoint.deliveryCount = UInt32.ofNat p.taken ∧
    p.sent ≤ p.advertised ∧
    (p.up = [] → p.down = [] →
      p.receiver.endpoint.deliveryCount = p.sender.endpoint.deliveryCount ∧
        p.receiver.endpoint.linkCredit = p.sender.endpoint.linkCredit) := by
  obtain ⟨last, hstart⟩ := h.agrees m
  obtain ⟨low, last', hrun⟩ := hstart.run steps
  have hlimit := hrun.reach_le
  exact ⟨hrun.sent_eq, hrun.taken_eq, by omega, hrun.same⟩

/-- A sending end whose count is about to wrap around. -/
def wrappingSender : Sender where
  endpoint :=
    { name := "x", handle := 0, role := .sender, state := .attached,
      deliveryCount := 0xFFFFFFFF, senderSettleMode := .mixed, receiverSettleMode := .first }

/-- A receiving end at the same count, which grants a credit of two. -/
def wrappingReceiver : Receiver where
  endpoint :=
    { name := "x", handle := 0, role := .receiver, state := .attached,
      deliveryCount := 0xFFFFFFFF, senderSettleMode := .mixed, receiverSettleMode := .first }
  prefetch := 2
  autoAccept := true

/-- A delivery in two transfers crosses a lower grant, and a second one is sent on the rest. -/
def wrappingSteps : List Pair.Step :=
  [.takeDown, .send 0 [1] [[2]] false 0, .grant ⟨1, by decide⟩ {}, .send 1 [3] [] true 0,
    .takeUp {}, .takeUp {}, .takeDown, .takeUp {}, .takeDown]

theorem credit_of_wrappingSteps :
    Attached wrappingSender wrappingReceiver ∧
      let p := (Pair.start wrappingSender wrappingReceiver {}).run wrappingSteps
      p.sent = 0x100000001 ∧ p.sender.endpoint.deliveryCount = 1 ∧ p.sent ≤ p.advertised ∧
        p.receiver.endpoint.linkCredit = p.sender.endpoint.linkCredit := by
  have hunlimited : ∀ size, Within wrappingReceiver.endpoint.maxMessageSize size := by
    intro size limit hlimit
    cases hlimit
  have hattached : Attached wrappingSender wrappingReceiver :=
    ⟨rfl, rfl, rfl, rfl, rfl, rfl, hunlimited, by decide⟩
  obtain ⟨hsent, -, hlimit, hsame⟩ := credit_of_run hattached {} wrappingSteps
  have htotal : ((Pair.start wrappingSender wrappingReceiver {}).run wrappingSteps).sent =
      0x100000001 := by decide +kernel
  have hquiet : ((Pair.start wrappingSender wrappingReceiver {}).run wrappingSteps).up = [] ∧
      ((Pair.start wrappingSender wrappingReceiver {}).run wrappingSteps).down = [] := ⟨rfl, rfl⟩
  refine ⟨hattached, htotal, ?_, hlimit, (hsame hquiet.1 hquiet.2).2⟩
  rw [hsent, htotal]
  rfl

end Amqp.Link
