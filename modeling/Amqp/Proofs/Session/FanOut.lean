import Amqp.Proofs.Session.Allotting
import Mathlib.Data.List.Nodup

/-!
# Links that react together

A change of the session's state, the passing of time and a disposition of the peer concern all links
of a session (`FanOut`).  The order in which they react is that of the tables, which nobody relies
on.  `Rearranged` says that two sessions differ in this order only: a fan-out then leaves them so,
and makes them send the same frames in some order (`perform_rearranged`), because no link sees what
another one makes of the event.

A name may be visited more than once, as a disposition visits it for every handle that leads to it.
The order does not matter even then (`visit_perm`).
-/

namespace Amqp

/-! ## Entries in another order -/

namespace Table

variable {κ α : Type} [DecidableEq κ] {t t' : Table κ α}

theorem get?_eq_of_perm (h : t.entries.Perm t'.entries) (k : κ) : t.get? k = t'.get? k := by
  refine Option.ext fun a => ?_
  rw [get?_eq_some_iff, get?_eq_some_iff, h.mem_iff]

theorem perm_of_get?_eq (h : ∀ k, t.get? k = t'.get? k) : t.entries.Perm t'.entries := by
  refine (List.perm_ext_iff_of_nodup t.keys_nodup.of_map t'.keys_nodup.of_map).2 ?_
  rintro ⟨k, a⟩
  rw [← get?_eq_some_iff, ← get?_eq_some_iff, h]

end Table

namespace Session

/-- Whether two sessions are the same but for the order in which they keep their links and the
peer's handles. -/
structure Rearranged (s s' : Session) : Prop where
  links : s.links.entries.Perm s'.links.entries
  inputHandles : s.inputHandles.entries.Perm s'.inputHandles.entries
  rest : s' = { s with links := s'.links, inputHandles := s'.inputHandles }

namespace Rearranged

variable {s s' s'' : Session}

theorem refl (s : Session) : Rearranged s s := ⟨.refl _, .refl _, rfl⟩

theorem symm (h : Rearranged s s') : Rearranged s' s := by
  obtain ⟨hlinks, hinput, hrest⟩ := h
  refine ⟨hlinks.symm, hinput.symm, ?_⟩
  rw [hrest]

theorem trans (h : Rearranged s s') (h' : Rearranged s' s'') : Rearranged s s'' := by
  refine ⟨h.links.trans h'.links, h.inputHandles.trans h'.inputHandles, ?_⟩
  rw [h'.rest, h.rest]

end Rearranged

/-! ## Visits -/

section Visits

variable (react : Link → Link × List Link.Output)

/-- The links after the named one has reacted, if there is one. -/
def touch (links : Table String Link) (name : String) : Table String Link :=
  (links.get? name).elim links fun l => links.insert name (react l).1

/-- What the named link says, if there is one. -/
def said (links : Table String Link) (name : String) : List Link.Output :=
  (links.get? name).elim [] fun l => (react l).2

theorem visit_cons (name : String) (names : List String) (links : Table String Link) :
    visit react (name :: names) links =
      ((visit react names (touch react links name)).1,
        said react links name ++ (visit react names (touch react links name)).2) := by
  unfold touch said
  rw [visit]
  cases links.get? name <;> rfl

/-- No link but the named one is touched. -/
theorem get?_touch (links : Table String Link) (name n : String) :
    (touch react links name).get? n =
      if n = name then (links.get? n).map fun l => (react l).1 else links.get? n := by
  unfold touch
  split_ifs with hn
  · rw [hn]
    cases hl : links.get? name with
    | none => exact hl
    | some l =>
      dsimp only [Option.elim_some, Option.map_some]
      rw [Table.get?_insert, if_pos rfl]
  · cases hl : links.get? name with
    | none => rfl
    | some l =>
      dsimp only [Option.elim_some]
      rw [Table.get?_insert, if_neg hn]

theorem said_touch {links : Table String Link} {name n : String} (h : n ≠ name) :
    said react (touch react links name) n = said react links n := by
  unfold said
  rw [get?_touch, if_neg h]

variable {links links' : Table String Link}

theorem get?_touch_congr (h : ∀ n, links.get? n = links'.get? n) (name n : String) :
    (touch react links name).get? n = (touch react links' name).get? n := by
  rw [get?_touch, get?_touch, h]

theorem said_congr (h : ∀ n, links.get? n = links'.get? n) (name : String) :
    said react links name = said react links' name := by
  unfold said
  rw [h]

theorem visit_congr (h : ∀ n, links.get? n = links'.get? n) (names : List String) :
    (∀ n, (visit react names links).1.get? n = (visit react names links').1.get? n) ∧
      (visit react names links).2 = (visit react names links').2 := by
  induction names generalizing links links' with
  | nil => exact ⟨h, rfl⟩
  | cons name names ih =>
    obtain ⟨hlinks, houtputs⟩ := ih (get?_touch_congr react h name)
    rw [visit_cons, visit_cons, said_congr react h, houtputs]
    exact ⟨hlinks, rfl⟩

/-- Neither of two links sees whether the other one has reacted before it. -/
theorem get?_touch_comm (links : Table String Link) (a b n : String) :
    (touch react (touch react links a) b).get? n =
      (touch react (touch react links b) a).get? n := by
  simp only [get?_touch]
  split_ifs <;> rfl

/-- In any order the links come to the same and say the same. -/
theorem visit_perm (h : ∀ n, links.get? n = links'.get? n) {names names' : List String}
    (hnames : names.Perm names') :
    (∀ n, (visit react names links).1.get? n = (visit react names' links').1.get? n) ∧
      (visit react names links).2.Perm (visit react names' links').2 := by
  induction hnames generalizing links links' with
  | nil => exact ⟨h, .nil⟩
  | cons name _ ih =>
    obtain ⟨hlinks, houtputs⟩ := ih (get?_touch_congr react h name)
    rw [visit_cons, visit_cons, said_congr react h]
    exact ⟨hlinks, houtputs.append_left _⟩
  | swap a b names =>
    have hboth : ∀ n, (touch react (touch react links b) a).get? n =
        (touch react (touch react links' a) b).get? n := fun n => by
      rw [get?_touch_comm]
      exact get?_touch_congr react (get?_touch_congr react h a) b n
    obtain ⟨hlinks, houtputs⟩ := visit_congr react hboth names
    rw [visit_cons, visit_cons, visit_cons, visit_cons, ← houtputs, said_congr react h b]
    refine ⟨hlinks, ?_⟩
    by_cases hab : a = b
    · subst hab
      rw [said_congr react (get?_touch_congr react h a)]
    · rw [said_touch react hab, said_touch react (Ne.symm hab), said_congr react h a,
        ← List.append_assoc, ← List.append_assoc]
      exact List.perm_append_comm.append_right _
  | trans _ _ ih ih' =>
    have hsame : ∀ n, links.get? n = links.get? n := fun _ => rfl
    obtain ⟨hlinks, houtputs⟩ := ih hsame
    obtain ⟨hlinks', houtputs'⟩ := ih' h
    exact ⟨fun n => (hlinks n).trans (hlinks' n), houtputs.trans houtputs'⟩

/-- What no reaction changes in a link, no visit changes. -/
theorem map_get?_visit {β : Type} {f : Link → β} (h : ∀ l, f (react l).1 = f l)
    (names : List String) (links : Table String Link) (n : String) :
    ((visit react names links).1.get? n).map f = (links.get? n).map f := by
  induction names generalizing links with
  | nil => rfl
  | cons name names ih =>
    rw [visit_cons, ih, get?_touch]
    split_ifs
    · rw [Option.map_map]
      exact congrArg (Option.map · _) (funext h)
    · rfl

end Visits

/-! ## Names of links -/

/-- Whether links are kept under their own names. -/
def IsKeyed (s : Session) : Prop := ∀ name p, s.placeOf name = some p → p.name = name

namespace IsKeyed

variable {s s' : Session}

theorem of_samePlaces (h : IsKeyed s) (hlinks : SamePlaces s.links s'.links) : IsKeyed s' := by
  intro name p hp
  have hplace : s'.placeOf name = s.placeOf name := hlinks name
  exact h name p (hplace ▸ hp)

theorem register (h : IsKeyed s) (l : Link) : IsKeyed (s.register l) := by
  intro name p hp
  rw [placeOf_register] at hp
  split_ifs at hp with hname
  · cases hp
    exact hname.symm
  · exact h name p hp

theorem move {ps : List Performative} (h : IsKeyed s) (hmove : Move s ps s') : IsKeyed s' := by
  cases hmove with
  | turn => exact h.of_samePlaces (samePlaces_mapValues (Link.place_followSession _) _)
  | drop => intro name p hp; cases hp
  | relink hlinks => exact h.of_samePlaces hlinks
  | register => exact h.register _
  | @reattach attach l hlink =>
    intro name p hp
    rw [placeOf_attachKnown] at hp
    split_ifs at hp with hname
    · cases hp
      rw [hname]
      exact h attach.name l.place (by rw [placeOf, hlink]; rfl)
    · exact h name p hp
  | remove =>
    intro name p hp
    rw [placeOf_remove] at hp
    split_ifs at hp
    exact h name p hp
  | _ => exact h

theorem moves {ps : List Performative} (h : IsKeyed s) (hmoves : Moves s ps s') : IsKeyed s' := by
  induction hmoves with
  | refl => exact h
  | tail _ hmove ih => exact ih.move hmove

theorem endpoint_name (h : IsKeyed s) {name : String} {l : Link} (hl : s.links.get? name = some l) :
    l.endpoint.name = name :=
  h name l.place (by rw [placeOf, hl]; rfl)

section

variable {κ : Type}

theorem prepare (h : IsKeyed s) (ev : Event κ) : IsKeyed (ev.prepare s) := by
  rcases ev.prepare_cases s with hp | ⟨name, l, handle, -, -, hp⟩ | ⟨v, hp⟩ | ⟨v, hp⟩ | hp
  · rwa [hp]
  · rw [hp]
    exact h.register l
  all_goals
    rw [hp]
    exact h

theorem run [FrameCarrier κ] {x : Session × Recorder κ} (h : IsKeyed x.1) (evs : List (Event κ)) :
    IsKeyed (run evs x).1 := by
  induction evs generalizing x with
  | nil => exact h
  | cons ev evs ih =>
    obtain ⟨ps, hmoves, -, -⟩ := ran_perform ev x.1 x.2
    exact ih ((h.prepare ev).moves hmoves)

end

end IsKeyed

theorem isKeyed_start {κ : Type} (o : Origin κ) : IsKeyed o.start.1 := by
  intro name p hp
  cases hp

/-! ## Fan-outs -/

/-- What concerns all links of a session: a state that it enters, the passing of time, and a
disposition of the peer. -/
inductive FanOut where
  | enter (state : State)
  | evaluate (now : Nat)
  | disposition (d : Disposition)

namespace FanOut

/-- What a session does upon a fan-out. -/
def perform {κ : Type} [FrameCarrier κ] : FanOut → Acting κ Unit
  | enter state => transition state
  | evaluate now => Acting.update (Session.evaluate now)
  | disposition d => onDisposition d

/-- What the session becomes, and what its links say. -/
def change (s : Session) : FanOut → Session × List Link.Output
  | enter state => s.enter state
  | evaluate now => (s.evaluate now, [])
  | disposition d =>
    let visited := visit (Link.onDisposition d) s.inputHandles.values s.links
    ({ s with links := visited.1 }, visited.2)

theorem perform_eq {κ : Type} [FrameCarrier κ] (f : FanOut) (s : Session) (carrier : κ) :
    f.perform (s, carrier) = commit (f.change s) (s, carrier) := by
  cases f <;> rfl

/-- The order of links and handles has no effect on what becomes of them. -/
theorem change_rearranged {s s' : Session} (h : Rearranged s s') (f : FanOut) :
    Rearranged (f.change s).1 (f.change s').1 ∧ (f.change s).2.Perm (f.change s').2 := by
  obtain ⟨hlinks, hinput, hrest⟩ := h
  cases f with
  | enter state =>
    refine ⟨⟨hlinks.map _, hinput, ?_⟩, (hlinks.map _).flatMap_right _⟩
    rw [hrest]
    rfl
  | evaluate now =>
    refine ⟨⟨hlinks.map _, hinput, ?_⟩, .nil⟩
    rw [hrest]
    rfl
  | disposition d =>
    obtain ⟨hvisited, houtputs⟩ := visit_perm (Link.onDisposition d) (Table.get?_eq_of_perm hlinks)
      (hinput.map Prod.snd)
    refine ⟨⟨Table.perm_of_get?_eq hvisited, hinput, ?_⟩, houtputs⟩
    rw [hrest]
    rfl

end FanOut

/-! ## Frames that go out -/

/-- Whether a kind of carrier takes every frame. -/
def TakesEveryFrame (κ : Type) [FrameCarrier κ] : Prop :=
  ∀ channel p (carrier : κ), ∃ carrier', FrameCarrier.carry channel p carrier = .ok () carrier'

/-- The frames for outputs of links, on the session's channel. -/
def framesOf (s : Session) (outputs : List Link.Output) : List (UInt16 × Performative) :=
  outputs.map fun output => (s.channel, s.frameOf output)

theorem sendOutputs_of_takesEveryFrame {κ : Type} [FrameCarrier κ] (h : TakesEveryFrame κ)
    (outputs : List Link.Output) (s : Session) (r : Recorder κ) :
    ∃ carrier, sendOutputs outputs (s, r) =
      .ok () (s, { carrier, frames := r.frames ++ s.framesOf outputs }) := by
  induction outputs generalizing r with
  | nil => exact ⟨r.carrier, by rw [framesOf, List.map_nil, List.append_nil]; rfl⟩
  | cons output outputs ih =>
    have hone : sendOutput output (s, r) = Acting.emit (s.frameOf output) (s, r) := by
      cases output <;> rfl
    obtain ⟨carrier, hcarry⟩ := h s.channel (s.frameOf output) r.carrier
    obtain ⟨carrier', hrest⟩ :=
      ih { carrier, frames := r.frames ++ [(s.channel, s.frameOf output)] }
    refine ⟨carrier', ?_⟩
    unfold sendOutputs
    rw [Action.bind_of_ok (hone.trans (emit_of_accepts hcarry)), hrest, List.append_assoc]
    rfl

/-! ## Attaches -/

/-- The attach that an output is, if it is one. -/
def attach? : Link.Output → Option Attach
  | .attach v => some v
  | _ => none

theorem attach?_eq_some_iff {output : Link.Output} {a : Attach} :
    attach? output = some a ↔ output = .attach a := by
  cases output <;> simp [attach?]

theorem mem_filterMap_attach?_iff {outputs : List Link.Output} {a : Attach} :
    a ∈ outputs.filterMap attach? ↔ .attach a ∈ outputs := by
  simp [attach?_eq_some_iff]

theorem attachesOf_framesOf (s : Session) (outputs : List Link.Output) :
    attachesOf (s.framesOf outputs) = outputs.filterMap attach? := by
  unfold attachesOf framesOf
  rw [List.filterMap_map]
  refine List.filterMap_congr fun output _ => ?_
  cases output <;> rfl

/-- Whether a link that was detached is now attaching. -/
def Attaches (l l' : Link) : Prop :=
  l.endpoint.state = .detached ∧ l'.endpoint.state = .attachSent

/-- A link that follows the session says nothing, or attaches and says so. -/
theorem followSession_cases (state : State) (l : Link) :
    (l.followSession state).2 = [] ∧ ¬ Attaches l (l.followSession state).1 ∨
      (l.followSession state).2 = [.attach l.endpoint.toAttach] ∧
        Attaches l (l.followSession state).1 := by
  have hend (e : Link.Endpoint) : (e.followSession state).2 = [] ∧
        ¬ (e.state = .detached ∧ (e.followSession state).1.state = .attachSent) ∨
      (e.followSession state).2 = [.attach e.toAttach] ∧
        e.state = .detached ∧ (e.followSession state).1.state = .attachSent := by
    unfold Link.Endpoint.followSession
    cases state with
    | mapped =>
      dsimp only
      split_ifs with h
      · exact Or.inr ⟨rfl, by simpa using (Bool.and_eq_true_iff.1 h).2, rfl⟩
      · exact Or.inl ⟨rfl, fun hstate => by rw [hstate.1] at hstate; cases hstate.2⟩
    | discarding | unmapped => exact Or.inl ⟨rfl, fun hstate => by cases hstate.2⟩
    | _ => exact Or.inl ⟨rfl, fun hstate => by rw [hstate.1] at hstate; cases hstate.2⟩
  cases l with
  | sender v => exact hend v.endpoint
  | receiver v => exact hend v.endpoint

theorem attach_mem_followSession_iff {state : State} {l : Link} {a : Attach} :
    .attach a ∈ (l.followSession state).2 ↔
      Attaches l (l.followSession state).1 ∧ a = l.endpoint.toAttach := by
  rcases followSession_cases state l with ⟨houtputs, hattaches⟩ | ⟨houtputs, hattaches⟩
  · simp [houtputs, hattaches]
  · simp [houtputs, hattaches]

/-- Whether attaches are those of the links that have begun to attach, one for each. -/
structure AttachesOnce (s s' : Session) (attaches : List Attach) : Prop where
  names_nodup : (attaches.map Attach.name).Nodup
  mem_iff : ∀ a, a ∈ attaches ↔ ∃ l l', s.links.get? a.name = some l ∧
    s'.links.get? a.name = some l' ∧ Attaches l l' ∧ a = l.endpoint.toAttach

/-- Links whose ends stay as they are do not attach. -/
theorem attachesOnce_nil {s s' : Session} (h : ∀ name,
    (s'.links.get? name).map Link.endpoint = (s.links.get? name).map Link.endpoint) :
    AttachesOnce s s' [] := by
  refine ⟨List.nodup_nil, fun a => ⟨fun ha => absurd ha List.not_mem_nil, ?_⟩⟩
  rintro ⟨l, l', hl, hl', ⟨hstate, hstate'⟩, -⟩
  have hend := h a.name
  rw [hl, hl', Option.map_some, Option.map_some, Option.some.injEq] at hend
  rw [hend, hstate] at hstate'
  cases hstate'

theorem flatMap_sublist_map {α β : Type} {f : α → List β} {g : α → β} {xs : List α}
    (h : ∀ x ∈ xs, f x = [] ∨ f x = [g x]) : (xs.flatMap f).Sublist (xs.map g) := by
  induction xs with
  | nil => exact .slnil
  | cons x xs ih =>
    obtain ⟨hx, hxs⟩ := List.forall_mem_cons.1 h
    rw [List.flatMap_cons, List.map_cons]
    rcases hx with hx | hx
    · rw [hx]
      exact (ih hxs).cons _
    · rw [hx]
      exact (ih hxs).cons_cons _

/-- The links that attach upon a state of the session, each under its own name. -/
theorem attachesOnce_enter {s : Session} (hs : IsKeyed s) (state : State) :
    AttachesOnce s (s.enter state).1 ((s.enter state).2.filterMap attach?) := by
  have hname : ∀ e ∈ s.links.entries, e.2.endpoint.name = e.1 := fun e he =>
    hs.endpoint_name (Table.get?_eq_some_iff.2 he)
  constructor
  · have hnames : ((s.enter state).2.filterMap attach?).map Attach.name =
        s.links.entries.flatMap fun e =>
          ((e.2.followSession state).2.filterMap attach?).map Attach.name := by
      unfold enter Table.values
      rw [List.flatMap_map, List.filterMap_flatMap, List.map_flatMap]
    rw [hnames]
    refine (flatMap_sublist_map fun e he => ?_).nodup s.links.keys_nodup
    rcases followSession_cases state e.2 with ⟨houtputs, -⟩ | ⟨houtputs, -⟩
    · exact Or.inl (by rw [houtputs]; rfl)
    · exact Or.inr (by rw [houtputs, ← hname e he]; rfl)
  · intro a
    have hlink (n : String) : (s.enter state).1.links.get? n =
        (s.links.get? n).map fun l => (l.followSession state).1 := Table.get?_mapValues _ _ _
    rw [mem_filterMap_attach?_iff]
    constructor
    · intro ha
      obtain ⟨l, hl, ha⟩ := List.mem_flatMap.1 ha
      obtain ⟨e, he, rfl⟩ := List.mem_map.1 hl
      obtain ⟨hattaches, rfl⟩ := attach_mem_followSession_iff.1 ha
      have hget : s.links.get? e.2.endpoint.toAttach.name = some e.2 := by
        rw [Table.get?_eq_some_iff]
        change (e.2.endpoint.name, e.2) ∈ s.links.entries
        rwa [hname e he]
      exact ⟨e.2, _, hget, by rw [hlink, hget, Option.map_some], hattaches, rfl⟩
    · rintro ⟨l, l', hl, hl', hattaches, ha⟩
      rw [hlink, hl, Option.map_some, Option.some.injEq] at hl'
      rw [← hl'] at hattaches
      refine List.mem_flatMap.2 ⟨l, ?_, attach_mem_followSession_iff.2 ⟨hattaches, ha⟩⟩
      exact List.mem_map.2 ⟨_, Table.get?_eq_some_iff.1 hl, rfl⟩

theorem endpoint_onDisposition (d : Disposition) (l : Link) :
    (l.onDisposition d).1.endpoint = l.endpoint := by
  cases l with
  | sender v => exact Link.Sender.endpoint_onDisposition d v
  | receiver v => exact Link.Receiver.endpoint_onDisposition d v

theorem endpoint_evaluate (now : Nat) (l : Link) : (l.evaluate now).endpoint = l.endpoint := by
  cases l with
  | sender v => exact Link.Sender.endpoint_evaluate now v
  | receiver v => rfl

theorem attach_notMem_onDisposition (d : Disposition) (l : Link) (a : Attach) :
    .attach a ∉ (l.onDisposition d).2 := by
  cases l with
  | receiver v => exact List.not_mem_nil
  | sender v =>
    unfold Link.onDisposition Link.Sender.onDisposition
    dsimp only
    split_ifs <;> simp

/-- Visited links say nothing that none of them says by itself. -/
theorem notMem_visit {react : Link → Link × List Link.Output} {output : Link.Output}
    (h : ∀ l, output ∉ (react l).2) (names : List String) (links : Table String Link) :
    output ∉ (visit react names links).2 := by
  induction names generalizing links with
  | nil => exact List.not_mem_nil
  | cons name names ih =>
    rw [visit_cons, List.mem_append, not_or]
    refine ⟨?_, ih _⟩
    unfold said
    cases links.get? name with
    | none => exact List.not_mem_nil
    | some l => exact h l

theorem attachesOnce_change {s : Session} (hs : IsKeyed s) (f : FanOut) :
    AttachesOnce s (f.change s).1 ((f.change s).2.filterMap attach?) := by
  cases f with
  | enter state => exact attachesOnce_enter hs state
  | evaluate now =>
    refine attachesOnce_nil fun name => ?_
    change ((s.links.mapValues (Link.evaluate now)).get? name).map Link.endpoint = _
    rw [Table.get?_mapValues, Option.map_map]
    exact congrArg (Option.map · _) (funext (endpoint_evaluate now))
  | disposition d =>
    have hnone : (FanOut.change s (.disposition d)).2.filterMap attach? = [] := by
      rw [List.eq_nil_iff_forall_not_mem]
      intro a ha
      exact notMem_visit (attach_notMem_onDisposition d · a) _ _ (mem_filterMap_attach?_iff.1 ha)
    rw [hnone]
    exact attachesOnce_nil (map_get?_visit _ (endpoint_onDisposition d) _ _)

/-! ## Results -/

theorem IsKeyed.rearranged {s s' : Session} (hs : IsKeyed s) (h : Rearranged s s') : IsKeyed s' := by
  intro name p hp
  have hget := Table.get?_eq_of_perm h.links name
  exact hs name p (by rwa [placeOf, hget])

/-- A fan-out on a carrier that takes every frame. -/
theorem perform_of_takesEveryFrame {κ : Type} [FrameCarrier κ] (htakes : TakesEveryFrame κ)
    (f : FanOut) (s : Session) (r : Recorder κ) :
    ∃ carrier, f.perform (s, r) = .ok () ((f.change s).1,
      { carrier, frames := r.frames ++ (f.change s).1.framesOf (f.change s).2 }) := by
  rw [FanOut.perform_eq]
  exact sendOutputs_of_takesEveryFrame htakes (f.change s).2 (f.change s).1 r

theorem framesOf_rearranged {s s' : Session} (h : Rearranged s s')
    {outputs outputs' : List Link.Output} (houtputs : outputs.Perm outputs') :
    (s.framesOf outputs).Perm (s'.framesOf outputs') := by
  have hframes : s'.framesOf = s.framesOf := by
    rw [h.rest]
    rfl
  rw [hframes]
  exact houtputs.map _

/-- In whatever order a session keeps its links and the peer's handles, a fan-out on a carrier that
takes every frame makes the same of the session and of each link and sends the same frames in some
order.  The attaches among them are those of the links that begin to attach, one for each. -/
theorem perform_rearranged {κ μ : Type} [FrameCarrier κ] [FrameCarrier μ]
    (htakes : TakesEveryFrame μ) (o : Origin κ) (evs : List (Event κ)) (f : FanOut)
    {s s' : Session} (hs : Rearranged (run evs o.start).1 s)
    (hs' : Rearranged (run evs o.start).1 s') (r : Recorder μ) :
    ∃ t t' carrier carrier' frames frames',
      f.perform (s, r) = .ok () (t, { carrier, frames := r.frames ++ frames }) ∧
      f.perform (s', r) =
        .ok () (t', { carrier := carrier', frames := r.frames ++ frames' }) ∧
      Rearranged t t' ∧ (∀ name, t.links.get? name = t'.links.get? name) ∧
      frames.Perm frames' ∧ AttachesOnce s t (attachesOf frames) ∧
      AttachesOnce s' t' (attachesOf frames') := by
  have hkeyed := (isKeyed_start o).run evs
  obtain ⟨carrier, hperform⟩ := perform_of_takesEveryFrame htakes f s r
  obtain ⟨carrier', hperform'⟩ := perform_of_takesEveryFrame htakes f s' r
  obtain ⟨hchange, houtputs⟩ := FanOut.change_rearranged (hs.symm.trans hs') f
  refine ⟨_, _, carrier, carrier', _, _, hperform, hperform', hchange,
    Table.get?_eq_of_perm hchange.links, framesOf_rearranged hchange houtputs, ?_, ?_⟩
  · rw [attachesOf_framesOf]
    exact attachesOnce_change (hkeyed.rearranged hs) f
  · rw [attachesOf_framesOf]
    exact attachesOnce_change (hkeyed.rearranged hs') f

/-! ### Two links -/

theorem takesEveryFrame_outbox : TakesEveryFrame Outbox := fun _ _ _ => ⟨_, rfl⟩

/-- A session with its links and the peer's handles in the opposite order. -/
def backwards (s : Session) : Session := { s with
  links := ⟨s.links.entries.reverse, by
    rw [List.map_reverse, List.nodup_reverse]
    exact s.links.keys_nodup⟩
  inputHandles := ⟨s.inputHandles.entries.reverse, by
    rw [List.map_reverse, List.nodup_reverse]
    exact s.inputHandles.keys_nodup⟩ }

theorem rearranged_backwards (s : Session) : Rearranged s s.backwards :=
  ⟨(List.reverse_perm _).symm, (List.reverse_perm _).symm, rfl⟩

/-- A sending and a receiving link, which wait for the session to be mapped. -/
def twoLinks : List (Event Outbox) :=
  [.addSender "a" "queue" none, .addReceiver "b" "queue" none, .begin .unlimited]

theorem perform_rearranged_twoLinks :
    let s := (run twoLinks plainOrigin.start).1
    let r : Recorder Outbox := { carrier := plainOrigin.carrier }
    s.links.keys = ["sender-link-a", "receiver-link-b"] ∧ TakesEveryFrame Outbox ∧
      Rearranged s s ∧ Rearranged s s.backwards ∧
      ∃ t t' carrier carrier' frames frames',
        (FanOut.enter .mapped).perform (s, r) = .ok () (t, { carrier, frames }) ∧
        (FanOut.enter .mapped).perform (s.backwards, r) =
          .ok () (t', { carrier := carrier', frames := frames' }) ∧
        Rearranged t t' ∧ (∀ name, t.links.get? name = t'.links.get? name) ∧
        frames.Perm frames' ∧ AttachesOnce s t (attachesOf frames) ∧
        AttachesOnce s.backwards t' (attachesOf frames') := by
  refine ⟨by decide +kernel, takesEveryFrame_outbox, .refl _, rearranged_backwards _, ?_⟩
  exact perform_rearranged takesEveryFrame_outbox plainOrigin twoLinks (.enter .mapped) (.refl _)
    (rearranged_backwards _) { carrier := plainOrigin.carrier }

end Session

end Amqp
