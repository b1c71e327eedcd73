import Amqp.Proofs.Session.HandleBounds

/-!
# Handles are taken first fit

Each new link of a session gets the least positive handle that no link holds, whether the owner adds
it or the peer attaches it.  When a link goes, nothing else holds its handle, and the next link gets
this handle or a lesser one.  A detach of the peer that is taken drops the link from all tables, and
nothing else (`loses_onDetach`).
-/

namespace Amqp.Session

open Amqp.Action Acting

/-- Whether a session has become another one by losing the link of one name, with its own handle and
the peer's, and nothing else of its tables. -/
structure Loses (s : Session) (name : String) (handle remoteHandle : UInt32) (s' : Session) :
    Prop where
  links : ∀ n, s'.links.get? n = if n = name then none else s.links.get? n
  outputHandles : ∀ h, s'.outputHandles.get? h =
    if h = handle then none else s.outputHandles.get? h
  inputHandles : ∀ h, s'.inputHandles.get? h =
    if h = remoteHandle then none else s.inputHandles.get? h

/-! ## Tables -/

section

variable {s : Session}

theorem Agree.unheld_eq (h : Agree s) : s.unheld =
    {n | 1 ≤ n ∧ ∀ name l, s.links.get? name = some l → l.endpoint.handle.toNat ≠ n} := by
  have hheld (n : Nat) : (∀ handle ∈ s.outputHandles.keys, handle.toNat ≠ n) ↔
      ∀ name l, s.links.get? name = some l → l.endpoint.handle.toNat ≠ n := by
    constructor
    · intro hkeys name l hl
      exact hkeys _ (h.mem_outputHandles_iff.2 ⟨name, handleOf_eq_some hl⟩)
    · intro hlinks handle hhandle
      obtain ⟨name, hname⟩ := h.mem_outputHandles_iff.1 hhandle
      obtain ⟨l, hl, rfl⟩ := Option.map_eq_some_iff.1 hname
      exact hlinks name l hl
  unfold unheld
  simp only [hheld]

/-- Two links do not have the same handle. -/
theorem Agree.eq_of_handleOf (h : Agree s) {name name' : String} {handle : UInt32}
    (hname : s.handleOf name = some handle) (hname' : s.handleOf name' = some handle) :
    name = name' := by
  rw [handleOf_eq_map_placeOf] at hname hname'
  have hheld := (h.output_iff handle name).2 (Option.map_eq_some_iff.1 hname)
  rw [(h.output_iff handle name').2 (Option.map_eq_some_iff.1 hname')] at hheld
  exact (Option.some.inj hheld).symm

theorem loses_remove_withLink (s : Session) (name : String) {l l' : Link}
    (hplace : l'.place = l.place) {remoteHandle : UInt32}
    (hremote : l.place.remoteHandle = some remoteHandle) :
    s.Loses name l.endpoint.handle remoteHandle ((s.withLink name l').remove name) := by
  have hl' : (s.withLink name l').links.get? name = some l' :=
    (Table.get?_insert _ _ _ _).trans (if_pos rfl)
  have hplaceOf : (s.withLink name l').placeOf name = some l.place := by
    rw [placeOf, hl', ← hplace]
    rfl
  constructor
  · intro n
    unfold remove
    rw [hl']
    dsimp only
    rw [Table.get?_erase]
    split_ifs with hn
    · rfl
    · exact (Table.get?_insert _ _ _ _).trans (if_neg hn)
  · exact outputHandles_remove hplaceOf
  · intro h
    rw [inputHandles_remove hplaceOf, hremote]
    simp only [Option.some.injEq, eq_comm]
    rfl

end

/-- A link that takes the peer's detach is detached. -/
theorem state_onDetach (d : Detach) (l : Link) : (l.onDetach d).1.endpoint.state = .detached := by
  have hend (e : Link.Endpoint) : (e.onDetach d).1.state = .detached := by
    unfold Link.Endpoint.onDetach
    dsimp only
    split
    · assumption
    all_goals rfl
  cases l with
  | sender v => exact hend v.endpoint
  | receiver v => exact hend v.endpoint

section

variable {κ : Type} [FrameCarrier κ] {x : Session × Recorder κ} {ev : Event κ}

theorem session_of_commit {change : Session × List Link.Output} {y : Session × Recorder κ}
    (h : commit change x = .ok () y) : y.1 = change.1 := by
  obtain ⟨carrier, qs, -, hafter⟩ := stateAfter_sendOutputs change.2 change.1 x.2
  have hcommit : stateAfter (commit change x) = (change.1, _) := hafter
  rw [h] at hcommit
  exact congrArg Prod.fst hcommit

theorem loses_onDetach {s : Session} {r : Recorder κ} {d : Detach} {name : String}
    {y : Session × Recorder κ} (hagree : Agree s)
    (hbound : s.inputHandles.get? d.handle = some name) (h : onDetach d (s, r) = .ok () y) :
    ∃ l, s.links.get? name = some l ∧ s.Loses name l.endpoint.handle d.handle y.1 := by
  obtain ⟨p, hp, hremote⟩ := (hagree.input_iff d.handle name).1 hbound
  obtain ⟨l, hl, rfl⟩ := Option.map_eq_some_iff.1 hp
  unfold onDetach at h
  rw [current_bind, hbound] at h
  dsimp only at h
  rw [link_eq_ok hl, ofExcept_ok_bind] at h
  obtain ⟨_, y₁, hcommit, hremove⟩ := bind_eq_ok h
  rw [if_pos (state_onDetach d l)] at hremove
  cases hremove
  have hsession : y₁.1 = s.withLink name (l.onDetach d).1 := session_of_commit hcommit
  refine ⟨l, hl, ?_⟩
  show s.Loses name l.endpoint.handle d.handle (y₁.1.remove name)
  rw [hsession]
  exact loses_remove_withLink s name (Link.place_onDetach d l) hremote

/-! ## Events -/

/-- A link that an event adds gets the least handle that no link has held before. -/
theorem isLeast_of_added (hagree : Agree x.1) (hfresh : ev.addedName?.bind x.1.links.get? = none)
    {name : String} {l : Link} (hl : (after x ev).1.links.get? name = some l)
    (hnew : x.1.links.get? name = none) :
    IsLeast {n | 1 ≤ n ∧ ∀ name l, x.1.links.get? name = some l → l.endpoint.handle.toNat ≠ n}
      l.endpoint.handle.toNat := by
  rw [← hagree.unheld_eq]
  obtain hheld | ⟨-, hfree⟩ :=
    (allotted_after x ev hfresh).handles name l.endpoint.handle (handleOf_eq_some hl)
  · rw [handleOf_eq_none hnew] at hheld
    cases hheld
  · exact (freeHandle_eq_ok_iff.1 hfree).1

/-- The handle of a link that goes upon an event is held by no link after it. -/
theorem notMem_of_dropped (hagree : Agree x.1) (hfresh : ev.addedName?.bind x.1.links.get? = none)
    {name : String} {l : Link} (hl : x.1.links.get? name = some l)
    (hgone : (after x ev).1.links.get? name = none) :
    l.endpoint.handle ∉ (after x ev).1.outputHandles.keys := by
  intro hmem
  obtain ⟨name', hname'⟩ := (hagree.after hfresh).mem_outputHandles_iff.1 hmem
  obtain hheld | ⟨-, hfree⟩ := (allotted_after x ev hfresh).handles name' _ hname'
  · -- The link that holds it would be the one that has gone.
    rw [hagree.eq_of_handleOf hheld (handleOf_eq_some hl), handleOf_eq_none hgone] at hname'
    cases hname'
  · -- The handle was in use, so it was not given out.
    have hheld := hagree.mem_outputHandles_iff.2 ⟨name, handleOf_eq_some hl⟩
    exact Table.get?_eq_none_iff.1 (get?_freeHandle hfree) hheld

/-! ## Runs -/

/-- The next handle of a session is the least positive number that is no local handle, if it is
below the bound and there are fewer local handles than that; with handles in range it is only
missing if all are taken.  So in every run a new link gets the least handle that no link holds.  The
handle of a link that goes is free at once, and if Begins spare the handles in use, the next link
gets it or a lesser one.  A detach of the peer that is taken drops exactly the link on its handle.
-/
theorem firstFit_of_run (o : Origin κ) (evs : List (Event κ)) (ev : Event κ)
    (hfresh : NamesFresh (evs ++ [ev]) o.start) :
    (∀ s : Session, s.freeHandle = s.scanHandle ∧
      (∀ handle, s.freeHandle = .ok handle ↔ IsLeast s.unheld handle.toNat ∧
        handle < s.handleMax ∧ s.outputHandles.size < s.handleMax.toNat) ∧
      (∀ f, s.freeHandle = .error f → f = .handlesExhausted s.handleMax) ∧
      (s.InRange → (s.freeHandle = .error (.handlesExhausted s.handleMax) ↔
        ∀ handle, 0 < handle → handle < s.handleMax → handle ∈ s.outputHandles.keys))) ∧
    let x := run evs o.start
    let y := after x ev
    (∀ name l, y.1.links.get? name = some l → x.1.links.get? name = none →
      IsLeast {n | 1 ≤ n ∧ ∀ name l, x.1.links.get? name = some l → l.endpoint.handle.toNat ≠ n}
        l.endpoint.handle.toNat) ∧
    (∀ name l, x.1.links.get? name = some l → y.1.links.get? name = none →
      l.endpoint.handle ∉ y.1.outputHandles.keys ∧
      (∀ next, y.1.freeHandle = .ok next → next ≤ l.endpoint.handle) ∧
      (Spared (evs ++ [ev]) o.start → ∃ next, y.1.freeHandle = .ok next)) ∧
    (∀ remoteChannel d name, x.1.inputHandles.get? d.handle = some name →
      ∀ z, dispatch remoteChannel (.detach d) x = .ok () z →
        ∃ l, x.1.links.get? name = some l ∧
          x.1.Loses name l.endpoint.handle d.handle z.1) := by
  obtain ⟨hfreshRun, hfreshEvent, -⟩ := namesFresh_append.1 hfresh
  have hagree := (agree_start o).run hfreshRun
  refine ⟨fun s => ⟨s.freeHandle_eq_scanHandle, fun _ => freeHandle_eq_ok_iff,
    fun _ => eq_of_freeHandle_eq_error, exhausted_iff⟩, ?_⟩
  intro x y
  refine ⟨fun name l => isLeast_of_added hagree hfreshEvent, fun name l hl hgone => ?_,
    fun _ d name hbound z => loses_onDetach hagree hbound⟩
  have hfree := notMem_of_dropped hagree hfreshEvent hl hgone
  have hheld := hagree.mem_outputHandles_iff.2 ⟨name, handleOf_eq_some hl⟩
  have hbelow := (handlesBelow_start o _).run (UInt32.le_refl _) (agree_start o) hfreshRun
  have hpos := (hbelow _ hheld).1
  refine ⟨hfree, fun next hnext => freeHandle_le_of_notMem hnext hpos hfree, fun hspared => ?_⟩
  obtain ⟨hsparedRun, hsparedEvent, -⟩ := spared_append.1 hspared
  have hrange := InRange.run (handlesBelow_start o _) (agree_start o) hfreshRun hsparedRun
  have hlt := Event.lt_boundAfter hsparedEvent hheld (hrange _ hheld).2
  rw [← handleMax_after] at hlt
  exact exists_freeHandle_of_notMem (hrange.after hagree hfreshEvent hsparedEvent) hpos hlt hfree

/-- The owner adds two links and gives the first one up; then the peer begins the session. -/
def givenUp : List (Event Outbox) :=
  [.addSender "a" "queue" none, .addSender "b" "queue" none, .detach "sender-link-a" false none,
    .dispatch 5 (.begin peerBegin)]

/-- The peer attaches a link of its own. -/
def theirAttach : Event Outbox :=
  .dispatch 5 (.attach { name := "theirs", handle := 8, role := .sender })

/-- The link of the peer gets the handle of the link that was given up. -/
theorem firstFit_of_givenUp :
    let x := run givenUp plainOrigin.start
    (after x theirAttach).1.outputHandles.entries = [(2, "sender-link-b"), (1, "theirs")] ∧
      IsLeast {n | 1 ≤ n ∧ ∀ name l, x.1.links.get? name = some l → l.endpoint.handle.toNat ≠ n}
        1 := by
  have hrun := (firstFit_of_run plainOrigin givenUp theirAttach
    ⟨rfl, rfl, rfl, rfl, rfl, trivial⟩).2.1 "theirs"
  have hhandle :
      (after (run givenUp plainOrigin.start) theirAttach).1.handleOf "theirs" = some 1 := by
    decide +kernel
  have hnew : ((run givenUp plainOrigin.start).1.links.get? "theirs").isNone = true := by
    decide +kernel
  obtain ⟨l, hl, hone⟩ := Option.map_eq_some_iff.1 hhandle
  have hleast := hrun l hl (Option.isNone_iff_eq_none.1 hnew)
  change l.endpoint.handle = 1 at hone
  rw [hone] at hleast
  exact ⟨by decide +kernel, hleast⟩

end

end Amqp.Session
