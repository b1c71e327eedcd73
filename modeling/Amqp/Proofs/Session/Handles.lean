import Amqp.Proofs.Session.Events

/-!
# Agreement of a session's tables

A session finds its links by name, by local handle and by the peer's handle.  `Agree` says that the
three tables tell the same.  Every move keeps it (`Agree.move`), and so does what a session prepares
for an event if the names of added links are new (`Agree.prepare`).  It follows for every run
(`Agree.run`).
-/

namespace Amqp.Session

/-- The place of the link under a name. -/
def placeOf (s : Session) (name : String) : Option Link.Place := (s.links.get? name).map Link.place

/-- Whether links are kept under their own names, and both tables of handles lead from each handle
to the link that holds it and from nowhere else. -/
structure Agree (s : Session) : Prop where
  name_eq : ∀ name p, s.placeOf name = some p → p.name = name
  output_iff : ∀ handle name,
    s.outputHandles.get? handle = some name ↔ ∃ p, s.placeOf name = some p ∧ p.handle = handle
  input_iff : ∀ handle name,
    s.inputHandles.get? handle = some name ↔
      ∃ p, s.placeOf name = some p ∧ p.remoteHandle = some handle

/-! ## Moves -/

theorem placeOf_register (l : Link) (s : Session) (name : String) :
    (s.register l).placeOf name = if name = l.place.name then some l.place else s.placeOf name := by
  unfold placeOf register
  dsimp only
  rw [Table.get?_insert]
  split_ifs with h h' h'
  · rfl
  · exact absurd h h'
  · exact absurd h' h
  · rfl

theorem outputHandles_register (l : Link) (s : Session) (handle : UInt32) :
    (s.register l).outputHandles.get? handle =
      if handle = l.place.handle then some l.place.name else s.outputHandles.get? handle :=
  Table.get?_insert _ _ _ _

theorem inputHandles_register (l : Link) (s : Session) (handle : UInt32) :
    (s.register l).inputHandles.get? handle =
      if l.place.remoteHandle = some handle then some l.place.name
      else s.inputHandles.get? handle := by
  have hremote : l.place.remoteHandle = l.endpoint.remoteHandle := rfl
  unfold register
  dsimp only
  rw [hremote]
  cases l.endpoint.remoteHandle with
  | none => rfl
  | some r =>
    dsimp only
    rw [Table.get?_insert]
    simp only [Option.some.injEq, eq_comm]
    rfl

theorem placeOf_attachKnown (attach : Attach) (l : Link) (s : Session) (name : String) :
    (s.attachKnown attach l).1.placeOf name =
      if name = attach.name then some { l.place with remoteHandle := some attach.handle }
      else s.placeOf name := by
  have hlinks : (s.attachKnown attach l).1.links =
      s.links.insert attach.name (l.onAttach attach).1 := rfl
  unfold placeOf
  rw [hlinks, Table.get?_insert]
  split_ifs
  · exact congrArg some (Link.place_onAttach attach l)
  · rfl

/-- The peer's handle leads to the link that it attaches, and the link's former handle nowhere. -/
theorem inputHandles_attachKnown (attach : Attach) (l : Link) (s : Session) (handle : UInt32) :
    (s.attachKnown attach l).1.inputHandles.get? handle =
      if handle = attach.handle then some attach.name
      else if l.place.remoteHandle = some handle then none else s.inputHandles.get? handle := by
  have hremote : l.place.remoteHandle = l.endpoint.remoteHandle := rfl
  unfold attachKnown
  dsimp only
  rw [Table.get?_insert, hremote]
  cases l.endpoint.remoteHandle with
  | none => simp
  | some stale =>
    dsimp only
    by_cases hstale : stale = attach.handle
    · grind
    · rw [if_neg hstale, Table.get?_erase]
      simp only [Option.some.injEq, eq_comm]

theorem placeOf_remove (name : String) (s : Session) (n : String) :
    (s.remove name).placeOf n = if n = name then none else s.placeOf n := by
  unfold remove
  split
  · rename_i hnone
    split_ifs with hn
    · rw [hn, placeOf, hnone]
      rfl
    · rfl
  · unfold placeOf
    dsimp only
    rw [Table.get?_erase]
    split_ifs <;> rfl

theorem outputHandles_remove {name : String} {s : Session} {p : Link.Place}
    (h : s.placeOf name = some p) (handle : UInt32) :
    (s.remove name).outputHandles.get? handle =
      if handle = p.handle then none else s.outputHandles.get? handle := by
  obtain ⟨l, hl, rfl⟩ := Option.map_eq_some_iff.1 h
  unfold remove
  rw [hl]
  exact Table.get?_erase _ _ _

theorem inputHandles_remove {name : String} {s : Session} {p : Link.Place}
    (h : s.placeOf name = some p) (handle : UInt32) :
    (s.remove name).inputHandles.get? handle =
      if p.remoteHandle = some handle then none else s.inputHandles.get? handle := by
  obtain ⟨l, hl, rfl⟩ := Option.map_eq_some_iff.1 h
  have hremote : l.place.remoteHandle = l.endpoint.remoteHandle := rfl
  unfold remove
  rw [hl, hremote]
  dsimp only
  cases l.endpoint.remoteHandle with
  | none => rfl
  | some r =>
    dsimp only
    rw [Table.get?_erase]
    simp only [Option.some.injEq, eq_comm]

namespace Agree

variable {s s' : Session}

theorem of_samePlaces (h : Agree s) (hlinks : SamePlaces s.links s'.links)
    (houtput : s'.outputHandles = s.outputHandles) (hinput : s'.inputHandles = s.inputHandles) :
    Agree s' := by
  have hplace : ∀ name, s'.placeOf name = s.placeOf name := hlinks
  constructor
  · simpa only [hplace] using h.name_eq
  · simpa only [hplace, houtput] using h.output_iff
  · simpa only [hplace, hinput] using h.input_iff

theorem register {l : Link} (h : Agree s) (hname : s.links.get? l.place.name = none)
    (hhandle : s.outputHandles.get? l.place.handle = none)
    (hremote : ∀ r n, l.place.remoteHandle = some r → s.inputHandles.get? r = some n →
      n = l.place.name) : Agree (s.register l) := by
  have hfree : s.placeOf l.place.name = none := by
    unfold placeOf
    rw [hname]
    rfl
  obtain ⟨hnames, houtput, hinput⟩ := h
  constructor
  · intro name p
    rw [placeOf_register]
    grind
  · intro handle name
    rw [placeOf_register, outputHandles_register]
    grind
  · intro handle name
    rw [placeOf_register, inputHandles_register]
    grind

theorem adds {name : String} (h : Agree s)
    (hname : s.links.get? name = none) (hadds : Adds name s s') : Agree s' := by
  obtain ⟨l, handle, hplace, hhandle, rfl⟩ := hadds
  refine h.register ?_ ?_ ?_
  · rwa [hplace]
  · rwa [hplace]
  · rw [hplace]
    intro r n hr
    cases hr

theorem attachKnown {attach : Attach} {l : Link} (h : Agree s)
    (hlink : s.links.get? attach.name = some l)
    (hremote : ∀ n, s.inputHandles.get? attach.handle = some n → n = attach.name) :
    Agree (s.attachKnown attach l).1 := by
  have hplace : s.placeOf attach.name = some l.place := by
    unfold placeOf
    rw [hlink]
    rfl
  have houtputs : (s.attachKnown attach l).1.outputHandles = s.outputHandles := rfl
  -- The handle that the link gives up leads to no other link.
  have hstale : ∀ r, l.place.remoteHandle = some r →
      s.inputHandles.get? r = some attach.name :=
    fun r hr => (h.input_iff r attach.name).2 ⟨l.place, hplace, hr⟩
  obtain ⟨hnames, houtput, hinput⟩ := h
  constructor
  · intro name p
    rw [placeOf_attachKnown]
    grind
  · intro handle name
    rw [placeOf_attachKnown, houtputs]
    grind
  · intro handle name
    rw [placeOf_attachKnown, inputHandles_attachKnown]
    grind

theorem remove (h : Agree s) (name : String) : Agree (s.remove name) := by
  cases hplace : s.placeOf name with
  | none =>
    have hsame : s.remove name = s := by
      unfold Session.remove
      rw [Option.map_eq_none_iff.1 hplace]
    rwa [hsame]
  | some p =>
    -- The handles that are dropped lead to no other link.
    have hheld : s.outputHandles.get? p.handle = some name :=
      (h.output_iff p.handle name).2 ⟨p, hplace, rfl⟩
    have hbound : ∀ r, p.remoteHandle = some r → s.inputHandles.get? r = some name :=
      fun r hr => (h.input_iff r name).2 ⟨p, hplace, hr⟩
    obtain ⟨hnames, houtput, hinput⟩ := h
    constructor
    · intro n q
      rw [placeOf_remove]
      grind
    · intro handle n
      rw [placeOf_remove, outputHandles_remove hplace]
      grind
    · intro handle n
      rw [placeOf_remove, inputHandles_remove hplace]
      grind

theorem dropLinks (s : Session) : Agree s.dropLinks := by
  constructor <;> simp [placeOf, Session.dropLinks]

theorem move {ps : List Performative} (h : Agree s) (hmove : Move s ps s') : Agree s' := by
  cases hmove with
  | turn => exact h.of_samePlaces (samePlaces_mapValues (Link.place_followSession _) _) rfl rfl
  | drop => exact dropLinks s
  | relink hlinks => exact h.of_samePlaces hlinks rfl rfl
  | register hname hhandle hremote => exact h.register hname hhandle hremote
  | reattach hlink hremote => exact h.attachKnown hlink hremote
  | remove name => exact h.remove name
  | _ => exact h.of_samePlaces (fun _ => rfl) rfl rfl

theorem moves {ps : List Performative} (h : Agree s) (hmoves : Moves s ps s') : Agree s' := by
  induction hmoves with
  | refl => exact h
  | tail _ hmove ih => exact ih.move hmove

theorem endpoint_name (h : Agree s) {name : String} {l : Link} (hl : s.links.get? name = some l) :
    l.endpoint.name = name :=
  h.name_eq name l.place (by rw [placeOf, hl]; rfl)

/-- What is said of the place of a link, said of the link itself. -/
theorem exists_place_iff (h : Agree s) (name : String) (q : Link.Place → Prop) :
    (∃ p, s.placeOf name = some p ∧ q p) ↔
      ∃ l, s.links.get? name = some l ∧ l.endpoint.name = name ∧ q l.place := by
  constructor
  · rintro ⟨p, hp, hq⟩
    obtain ⟨l, hl, rfl⟩ := Option.map_eq_some_iff.1 hp
    exact ⟨l, hl, h.endpoint_name hl, hq⟩
  · rintro ⟨l, hl, -, hq⟩
    exact ⟨l.place, by rw [placeOf, hl]; rfl, hq⟩

end Agree

/-! ## Runs -/

section

variable {κ : Type}

theorem Agree.prepare {s : Session} {ev : Event κ} (h : Agree s)
    (hfresh : ev.addedName?.bind s.links.get? = none) : Agree (ev.prepare s) := by
  cases hname : ev.addedName? with
  | some name =>
    rw [hname] at hfresh
    rcases Event.adds_prepare hname s with hsame | hadds
    · rwa [hsame]
    · exact h.adds hfresh hadds
  | none =>
    cases ev with
    | addSender | addReceiver => cases hname
    | dispatch remoteChannel p =>
      cases p with
      | begin | flow | transfer => exact h.of_samePlaces (fun _ => rfl) rfl rfl
      | _ => exact h
    | _ => exact h

theorem agree_start (o : Origin κ) : Agree o.start.1 := by
  constructor <;> simp [placeOf, Origin.start, create]

variable [FrameCarrier κ]

/-- Whether the links that are added along a run get names that no other link has. -/
def NamesFresh : List (Event κ) → Session × Recorder κ → Prop
  | [], _ => True
  | ev :: evs, x => ev.addedName?.bind x.1.links.get? = none ∧ NamesFresh evs (after x ev)

theorem Agree.after {x : Session × Recorder κ} {ev : Event κ} (h : Agree x.1)
    (hfresh : ev.addedName?.bind x.1.links.get? = none) : Agree (after x ev).1 := by
  obtain ⟨ps, hmoves, -, -⟩ := ran_perform ev x.1 x.2
  exact (h.prepare hfresh).moves hmoves

theorem Agree.run {x : Session × Recorder κ} {evs : List (Event κ)} (h : Agree x.1)
    (hfresh : NamesFresh evs x) : Agree (run evs x).1 := by
  induction evs generalizing x with
  | nil => exact h
  | cons ev evs ih => exact ih (h.after hfresh.1) hfresh.2

/-- In every state of a session a handle leads to a name exactly if the link with this name holds
the handle.  So no two links share a handle, and no handle leads to a missing link. -/
theorem handles_of_run (o : Origin κ) (evs : List (Event κ)) (hfresh : NamesFresh evs o.start) :
    let s := (run evs o.start).1
    (∀ handle name, s.outputHandles.get? handle = some name ↔
      ∃ l, s.links.get? name = some l ∧ l.endpoint.name = name ∧ l.endpoint.handle = handle) ∧
    (∀ handle name, s.inputHandles.get? handle = some name ↔
      ∃ l, s.links.get? name = some l ∧ l.endpoint.name = name ∧
        l.endpoint.remoteHandle = some handle) ∧
    (∀ name name' l l', s.links.get? name = some l → s.links.get? name' = some l' →
      (l.endpoint.handle = l'.endpoint.handle → name = name') ∧
      (∀ handle, l.endpoint.remoteHandle = some handle →
        l'.endpoint.remoteHandle = some handle → name = name')) ∧
    (∀ name l, s.links.get? name = some l → l.endpoint.name = name) := by
  have hagree := (agree_start o).run hfresh
  generalize (Session.run evs o.start).1 = s at hagree ⊢
  have houtput : ∀ handle name, s.outputHandles.get? handle = some name ↔
      ∃ l, s.links.get? name = some l ∧ l.endpoint.name = name ∧ l.endpoint.handle = handle :=
    fun handle name => (hagree.output_iff handle name).trans (hagree.exists_place_iff name _)
  have hinput : ∀ handle name, s.inputHandles.get? handle = some name ↔
      ∃ l, s.links.get? name = some l ∧ l.endpoint.name = name ∧
        l.endpoint.remoteHandle = some handle :=
    fun handle name => (hagree.input_iff handle name).trans (hagree.exists_place_iff name _)
  refine ⟨houtput, hinput, fun name name' l l' hl hl' => ⟨?_, ?_⟩, fun _ _ => hagree.endpoint_name⟩
  · intro hhandle
    have h := (houtput _ _).2 ⟨l, hl, hagree.endpoint_name hl, rfl⟩
    have h' := (houtput _ _).2 ⟨l', hl', hagree.endpoint_name hl', rfl⟩
    rw [hhandle, h'] at h
    exact (Option.some.inj h).symm
  · intro handle hremote hremote'
    have h := (hinput _ _).2 ⟨l, hl, hagree.endpoint_name hl, hremote⟩
    have h' := (hinput _ _).2 ⟨l', hl', hagree.endpoint_name hl', hremote'⟩
    rw [h'] at h
    exact (Option.some.inj h).symm

/-- The peer attaches a link twice, on different handles, and a link of its own in between. -/
def attachedAnew : List (Event Outbox) :=
  let peer : Attach := { name := "sender-link-x", handle := 7, role := .receiver }
  [.dispatch 5 (.begin peerBegin), .addSender "x" "queue" none, .attach "sender-link-x",
    .dispatch 5 (.attach peer),
    .dispatch 5 (.attach { name := "theirs", handle := 8, role := .sender }),
    .dispatch 5 (.attach { peer with handle := 9 })]

theorem handles_of_attachedAnew :
    let s := (run attachedAnew plainOrigin.start).1
    s.outputHandles.entries = [(1, "sender-link-x"), (2, "theirs")] ∧
      s.inputHandles.entries = [(8, "theirs"), (9, "sender-link-x")] ∧
      ∃ l, s.links.get? "sender-link-x" = some l ∧ l.endpoint.name = "sender-link-x" ∧
        l.endpoint.remoteHandle = some 9 := by
  have hrun := handles_of_run plainOrigin attachedAnew
    ⟨rfl, rfl, rfl, rfl, rfl, rfl, trivial⟩
  have hinput : (run attachedAnew plainOrigin.start).1.inputHandles.entries =
      [(8, "theirs"), (9, "sender-link-x")] := by
    decide +kernel
  refine ⟨by decide +kernel, hinput, (hrun.2.1 9 "sender-link-x").1 ?_⟩
  exact Table.get?_eq_some_iff.2 (by rw [hinput]; simp)

end

end Amqp.Session
