import Amqp.Proofs.Session.Allotting

/-!
# The bound of handles

The bound of a session's handles only goes down, and only by a Begin of the peer.  Handles are given
out below the bound of the moment (`HandlesBelow.after`); so they stay below it exactly as long as
no Begin undercuts a handle in use (`InRange.after`, `inRange_after_begin_iff`).  A Begin that does
leaves the links where they are, and they still attach.
-/

namespace Amqp.Session

/-! ## Bounds -/

section

variable {s s' : Session} {ps : List Performative}

theorem Move.handleMax_eq (h : Move s ps s') : s'.handleMax = s.handleMax := by
  cases h with
  | remove name =>
    unfold Session.remove
    split <;> rfl
  | _ => rfl

theorem Moves.handleMax_eq (h : Moves s ps s') : s'.handleMax = s.handleMax := by
  induction h with
  | refl => rfl
  | tail _ hmove ih => exact hmove.handleMax_eq.trans ih

theorem Agree.mem_outputHandles_iff (h : Agree s) {handle : UInt32} :
    handle ∈ s.outputHandles.keys ↔ ∃ name, s.handleOf name = some handle := by
  rw [Table.mem_keys_iff]
  refine exists_congr fun name => ?_
  rw [h.output_iff, handleOf_eq_map_placeOf, Option.map_eq_some_iff]

end

section

variable {κ : Type}

/-- The bound of a session after an event. -/
def Event.boundAfter (bound : UInt32) : Event κ → UInt32
  | .dispatch _ (.begin v) => min bound v.handleMax
  | _ => bound

/-- Whether a Begin of the peer bounds handles above all that are in use.  Other events do not
matter. -/
def Event.spares (s : Session) : Event κ → Prop
  | .dispatch _ (.begin v) => ∀ handle ∈ s.outputHandles.keys, handle < v.handleMax
  | _ => True

theorem lt_min_iff_of_lt {handle a b : UInt32} (h : handle < a) :
    handle < min a b ↔ handle < b := by
  rw [Std.min_eq_if]
  split_ifs with hle
  · exact ⟨fun _ => UInt32.lt_of_lt_of_le h hle, fun _ => h⟩
  · exact Iff.rfl

theorem Event.lt_boundAfter {s : Session} {ev : Event κ} {handle : UInt32} (hspares : ev.spares s)
    (hhandle : handle ∈ s.outputHandles.keys) (hlt : handle < s.handleMax) :
    handle < ev.boundAfter s.handleMax := by
  cases ev with
  | dispatch remoteChannel p =>
    cases p with
    | begin v => exact (lt_min_iff_of_lt hlt).2 (hspares handle hhandle)
    | _ => exact hlt
  | _ => exact hlt

theorem Event.boundAfter_le (bound : UInt32) (ev : Event κ) : ev.boundAfter bound ≤ bound := by
  unfold Event.boundAfter
  split
  · exact Std.min_le_left
  · exact UInt32.le_refl _

theorem Event.handleMax_prepare (ev : Event κ) (s : Session) :
    (ev.prepare s).handleMax = ev.boundAfter s.handleMax := by
  have hadds {name : String} (hname : ev.addedName? = some name) :
      (ev.prepare s).handleMax = s.handleMax := by
    obtain hsame | ⟨l, handle, -, -, hregister⟩ := Event.adds_prepare hname s
    · rw [hsame]
    · rw [hregister]
      rfl
  cases ev with
  | addSender | addReceiver => exact hadds rfl
  | dispatch remoteChannel p => cases p <;> rfl
  | _ => rfl

variable [FrameCarrier κ] {x : Session × Recorder κ} {bound : UInt32}

theorem handleMax_after (x : Session × Recorder κ) (ev : Event κ) :
    (after x ev).1.handleMax = ev.boundAfter x.1.handleMax := by
  obtain ⟨ps, hmoves, -⟩ := ran_perform ev x.1 x.2
  exact hmoves.handleMax_eq.trans (ev.handleMax_prepare x.1)

/-! ## The peer's Begin -/

/-- A Begin of the peer neither adds nor drops a link. -/
theorem outputHandles_after_begin (x : Session × Recorder κ) (remoteChannel : UInt16) (v : Begin) :
    (after x (.dispatch remoteChannel (.begin v))).1.outputHandles = x.1.outputHandles := by
  obtain ⟨carrier, ps, s', hhears, hafter, -⟩ := stateAfter_onBegin remoteChannel v x.1 x.2
  have hsession : (after x (.dispatch remoteChannel (.begin v))).1 = s' := congrArg Prod.fst hafter
  rw [hsession]
  cases hhears <;> rfl

/-- The links that attach upon a Begin of the peer have had their handles before. -/
theorem attaches_after_begin (x : Session × Recorder κ) (hagree : Agree x.1)
    (remoteChannel : UInt16) (v : Begin) :
    ∃ sent, (after x (.dispatch remoteChannel (.begin v))).2.frames = x.2.frames ++ sent ∧
      ∀ a ∈ attachesOf sent, a.handle ∈ x.1.outputHandles.keys := by
  have h : Allotted (fun name handle => x.1.handleOf name = some handle) x.2.frames x :=
    ⟨fun _ _ => id, [], (List.append_nil _).symm, fun _ ha => absurd ha List.not_mem_nil⟩
  obtain ⟨sent, hframes, hsent⟩ := (leaves_iff.1 (keeps_onBegin remoteChannel v x h)).attaches
  exact ⟨sent, hframes, fun a ha => hagree.mem_outputHandles_iff.2 (hsent a ha)⟩

/-! ## Handles below a bound -/

/-- What a session entitles a link to is below a bound if its handles are. -/
theorem HandlesBelow.of_entitles {s : Session} (h : s.HandlesBelow bound)
    (hbound : s.handleMax ≤ bound) (hagree : Agree s) {name : String} {handle : UInt32}
    (hentitles : s.Entitles name handle) : 0 < handle ∧ handle < bound := by
  rcases hentitles with hheld | ⟨-, hfree⟩
  · exact h handle (hagree.mem_outputHandles_iff.2 ⟨name, hheld⟩)
  · obtain ⟨⟨⟨hpos, -⟩, -⟩, hlt, -⟩ := freeHandle_eq_ok_iff.1 hfree
    exact ⟨UInt32.lt_iff_toNat_lt.2 hpos, UInt32.lt_of_lt_of_le hlt hbound⟩

/-- New handles stay below every bound that is above the session's own. -/
theorem HandlesBelow.after (h : x.1.HandlesBelow bound) (hbound : x.1.handleMax ≤ bound)
    (hagree : Agree x.1) {ev : Event κ} (hfresh : ev.addedName?.bind x.1.links.get? = none) :
    (after x ev).1.HandlesBelow bound := by
  intro handle hhandle
  obtain ⟨name, hname⟩ := (hagree.after hfresh).mem_outputHandles_iff.1 hhandle
  exact h.of_entitles hbound hagree ((allotted_after x ev hfresh).handles name handle hname)

/-- A Begin of the peer keeps the handles in range exactly if it spares them. -/
theorem inRange_after_begin_iff (h : x.1.InRange) (remoteChannel : UInt16) (v : Begin) :
    (Session.after x (.dispatch remoteChannel (.begin v))).1.InRange ↔
      (Event.dispatch remoteChannel (.begin v) : Event κ).spares x.1 := by
  unfold InRange HandlesBelow
  rw [outputHandles_after_begin, handleMax_after]
  refine forall₂_congr fun handle hhandle => ?_
  obtain ⟨hpos, hlt⟩ := h handle hhandle
  exact ⟨fun hrange => (lt_min_iff_of_lt hlt).1 hrange.2,
    fun hspares => ⟨hpos, (lt_min_iff_of_lt hlt).2 hspares⟩⟩

/-- Handles stay in range upon every event that spares them. -/
theorem InRange.after (h : x.1.InRange) (hagree : Agree x.1) {ev : Event κ}
    (hfresh : ev.addedName?.bind x.1.links.get? = none) (hspares : ev.spares x.1) :
    (after x ev).1.InRange := by
  have hsame (hbound : ev.boundAfter x.1.handleMax = x.1.handleMax) :
      (Session.after x ev).1.InRange := by
    unfold InRange
    rw [handleMax_after, hbound]
    exact HandlesBelow.after h (UInt32.le_refl _) hagree hfresh
  cases ev with
  | dispatch remoteChannel p =>
    cases p with
    | begin v => exact (inRange_after_begin_iff h remoteChannel v).2 hspares
    | _ => exact hsame rfl
  | _ => exact hsame rfl

/-- Attaches go out below the bound that a session has after the event. -/
theorem attaches_after (h : x.1.InRange) (hagree : Agree x.1) {ev : Event κ}
    (hfresh : ev.addedName?.bind x.1.links.get? = none) (hspares : ev.spares x.1) :
    ∃ sent, (after x ev).2.frames = x.2.frames ++ sent ∧
      ∀ a ∈ attachesOf sent, a.handle < (after x ev).1.handleMax := by
  have hsame (hbound : ev.boundAfter x.1.handleMax = x.1.handleMax) :
      ∃ sent, (Session.after x ev).2.frames = x.2.frames ++ sent ∧
        ∀ a ∈ attachesOf sent, a.handle < (Session.after x ev).1.handleMax := by
    obtain ⟨sent, hframes, hsent⟩ := (allotted_after x ev hfresh).attaches
    refine ⟨sent, hframes, fun a ha => ?_⟩
    obtain ⟨name, hname⟩ := hsent a ha
    rw [handleMax_after, hbound]
    exact (HandlesBelow.of_entitles h (UInt32.le_refl _) hagree hname).2
  cases ev with
  | dispatch remoteChannel p =>
    cases p with
    | begin v =>
      obtain ⟨sent, hframes, hsent⟩ := attaches_after_begin x hagree remoteChannel v
      refine ⟨sent, hframes, fun a ha => ?_⟩
      have hrange := (inRange_after_begin_iff h remoteChannel v).2 hspares
      refine (hrange a.handle ?_).2
      rw [outputHandles_after_begin]
      exact hsent a ha
    | _ => exact hsame rfl
  | _ => exact hsame rfl

/-! ## Runs -/

/-- Whether all Begins of the peer along a run spare the handles in use. -/
def Spared : List (Event κ) → Session × Recorder κ → Prop
  | [], _ => True
  | ev :: evs, x => ev.spares x.1 ∧ Spared evs (after x ev)

theorem HandlesBelow.run {evs : List (Event κ)} (h : x.1.HandlesBelow bound)
    (hbound : x.1.handleMax ≤ bound) (hagree : Agree x.1) (hfresh : NamesFresh evs x) :
    (run evs x).1.HandlesBelow bound := by
  induction evs generalizing x with
  | nil => exact h
  | cons ev evs ih =>
    refine ih (h.after hbound hagree hfresh.1) ?_ (hagree.after hfresh.1) hfresh.2
    rw [handleMax_after]
    exact UInt32.le_trans (ev.boundAfter_le _) hbound

theorem InRange.run {evs : List (Event κ)} (h : x.1.InRange) (hagree : Agree x.1)
    (hfresh : NamesFresh evs x) (hspared : Spared evs x) : (run evs x).1.InRange := by
  induction evs generalizing x with
  | nil => exact h
  | cons ev evs ih =>
    exact ih (h.after hagree hfresh.1 hspared.1) (hagree.after hfresh.1) hfresh.2 hspared.2

theorem attaches_of_run {evs : List (Event κ)} (h : x.1.InRange) (hagree : Agree x.1)
    (hfresh : NamesFresh evs x) (hspared : Spared evs x) (hbound : x.1.handleMax ≤ bound) :
    ∃ sent, (run evs x).2.frames = x.2.frames ++ sent ∧
      ∀ a ∈ attachesOf sent, a.handle < bound := by
  induction evs generalizing x with
  | nil => exact ⟨[], (List.append_nil _).symm, fun _ ha => absurd ha List.not_mem_nil⟩
  | cons ev evs ih =>
    obtain ⟨sent, hframes, hsent⟩ := attaches_after h hagree hfresh.1 hspared.1
    have hlower : (Session.after x ev).1.handleMax ≤ bound := by
      rw [handleMax_after]
      exact UInt32.le_trans (ev.boundAfter_le _) hbound
    obtain ⟨more, hmore, hbelow⟩ := ih (h.after hagree hfresh.1 hspared.1)
      (hagree.after hfresh.1) hfresh.2 hspared.2 hlower
    refine ⟨sent ++ more, ?_, fun a ha => ?_⟩
    · rw [← List.append_assoc, ← hframes]
      exact hmore
    · rw [attachesOf_append] at ha
      rcases List.mem_append.1 ha with ha | ha
      · exact UInt32.lt_of_lt_of_le (hsent a ha) hlower
      · exact hbelow a ha

theorem handleMax_run (evs : List (Event κ)) (x : Session × Recorder κ) :
    (run evs x).1.handleMax = evs.foldl Event.boundAfter x.1.handleMax := by
  induction evs generalizing x with
  | nil => rfl
  | cons ev evs ih =>
    rw [List.foldl_cons, ← handleMax_after]
    exact ih (Session.after x ev)

theorem run_append (evs more : List (Event κ)) (x : Session × Recorder κ) :
    run (evs ++ more) x = run more (run evs x) := List.foldl_append

theorem spared_append {evs more : List (Event κ)} :
    Spared (evs ++ more) x ↔ Spared evs x ∧ Spared more (run evs x) := by
  induction evs generalizing x with
  | nil => exact (and_iff_right trivial).symm
  | cons ev evs ih => exact (and_congr_right fun _ => ih).trans and_assoc.symm

theorem namesFresh_append {evs more : List (Event κ)} :
    NamesFresh (evs ++ more) x ↔ NamesFresh evs x ∧ NamesFresh more (run evs x) := by
  induction evs generalizing x with
  | nil => exact (and_iff_right trivial).symm
  | cons ev evs ih => exact (and_congr_right fun _ => ih).trans and_assoc.symm

omit [FrameCarrier κ] in
theorem handlesBelow_start (o : Origin κ) (bound : UInt32) :
    o.start.1.HandlesBelow bound :=
  fun _ hhandle => absurd hhandle List.not_mem_nil

/-- In every run local handles are positive and below the first bound of the session; its bound is
the least of this one and those in the Begins of the peer.  As long as these spare the handles in
use, all handles are below the bound of the moment, and from each Begin on attaches go out below the
bound that it names.  A next Begin keeps the handles in range exactly if it spares them. -/
theorem inRange_of_run (o : Origin κ) (evs : List (Event κ)) (hfresh : NamesFresh evs o.start) :
    let x := run evs o.start
    x.1.HandlesBelow o.settings.handleMax ∧
    x.1.handleMax = evs.foldl Event.boundAfter o.settings.handleMax ∧
    (Spared evs o.start → x.1.InRange) ∧
    (∀ before remoteChannel v later, evs = before ++ .dispatch remoteChannel (.begin v) :: later →
      Spared evs o.start →
      ∃ sent, x.2.frames = (run before o.start).2.frames ++ sent ∧
        ∀ a ∈ attachesOf sent, a.handle < v.handleMax) ∧
    (x.1.InRange → ∀ remoteChannel v,
      (after x (.dispatch remoteChannel (.begin v))).1.InRange ↔
        (Event.dispatch remoteChannel (.begin v) : Event κ).spares x.1) := by
  intro x
  have hagree := agree_start o
  have hrange := handlesBelow_start o o.settings.handleMax
  refine ⟨hrange.run (UInt32.le_refl _) hagree hfresh, handleMax_run evs o.start,
    InRange.run hrange hagree hfresh, ?_, inRange_after_begin_iff⟩
  rintro before remoteChannel v later rfl hspared
  obtain ⟨hfreshBefore, hfreshBegin, hfreshLater⟩ := namesFresh_append.1 hfresh
  obtain ⟨hsparedBefore, hsparedBegin, hsparedLater⟩ := spared_append.1 hspared
  have hagree := hagree.run hfreshBefore
  have hrange := InRange.run hrange (agree_start o) hfreshBefore hsparedBefore
  have hlower : (Session.after (Session.run before o.start)
      (.dispatch remoteChannel (.begin v))).1.handleMax ≤ v.handleMax := by
    rw [handleMax_after]
    exact Std.min_le_right
  -- The Begin itself makes the links attach; the rest of the run stays below its bound.
  obtain ⟨sent, hframes, hsent⟩ := attaches_after hrange hagree hfreshBegin hsparedBegin
  obtain ⟨more, hmore, hbelow⟩ := attaches_of_run (hrange.after hagree hfreshBegin hsparedBegin)
    (hagree.after hfreshBegin) hfreshLater hsparedLater hlower
  refine ⟨sent ++ more, ?_, fun a ha => ?_⟩
  · rw [← List.append_assoc, ← hframes, ← hmore]
    exact congrArg (fun y => y.2.frames) (run_append before _ o.start)
  · rw [attachesOf_append] at ha
    rcases List.mem_append.1 ha with ha | ha
    · exact UInt32.lt_of_lt_of_le (hsent a ha) hlower
    · exact hbelow a ha

-- By the handles in use: that of a finite type would go through all there are.
instance (bound : UInt32) (s : Session) : Decidable (s.HandlesBelow bound) :=
  List.decidableBAll _ s.outputHandles.keys

instance (s : Session) : Decidable s.InRange := inferInstanceAs (Decidable (s.HandlesBelow _))

/-- A session begins with a link, and the peer bounds handles by three; then another link attaches.
-/
def sparedBegin : List (Event Outbox) :=
  [.addSender "a" "queue" none, .begin .unlimited,
    .dispatch 5 (.begin { peerBegin with handleMax := 3 }), .addReceiver "b" "queue" none,
    .attach "receiver-link-b"]

theorem inRange_of_sparedBegin :
    let x := run sparedBegin plainOrigin.start
    x.1.InRange ∧ x.1.outputHandles.keys = [1, 2] ∧ x.1.handleMax = 3 ∧
      ∃ sent, x.2.frames = (run (sparedBegin.take 2) plainOrigin.start).2.frames ++ sent ∧
        ∀ a ∈ attachesOf sent, a.handle < 3 := by
  have hrun := inRange_of_run plainOrigin sparedBegin ⟨rfl, rfl, rfl, rfl, rfl, trivial⟩
  have hkeys : (run (sparedBegin.take 2) plainOrigin.start).1.outputHandles.keys = [1] := by
    decide +kernel
  have hbelow : ∀ handle ∈ (run (sparedBegin.take 2) plainOrigin.start).1.outputHandles.keys,
      handle < 3 := by
    intro handle hhandle
    rw [hkeys, List.mem_singleton] at hhandle
    rw [hhandle]
    decide
  have hspared : Spared sparedBegin plainOrigin.start :=
    ⟨trivial, trivial, hbelow, trivial, trivial, trivial⟩
  exact ⟨hrun.2.2.1 hspared, by decide +kernel, by decide +kernel,
    hrun.2.2.2.1 (sparedBegin.take 2) 5 { peerBegin with handleMax := 3 } _ rfl hspared⟩

/-- A session has three links when the peer bounds handles by two. -/
def loweredBegin : List (Event Outbox) :=
  [.addSender "a" "queue" none, .addSender "b" "queue" none, .addSender "c" "queue" none,
    .dispatch 5 (.begin { peerBegin with handleMax := 2 })]

/-- All three links attach, on handles that the peer does not allow. -/
theorem not_inRange_of_loweredBegin :
    let x := run loweredBegin plainOrigin.start
    ¬ x.1.InRange ∧ x.1.handleMax = 2 ∧ x.1.outputHandles.keys = [1, 2, 3] ∧
      (attachesOf x.2.frames).map (·.handle) = [1, 2, 3] := by
  decide +kernel

end

end Amqp.Session
