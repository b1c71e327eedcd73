import Amqp.Proofs.Link.Place
import Amqp.Proofs.Session.Sending

/-!
# Moves of a session

`Move s ps s'` is one step that a session takes on its own, with the frames that go out in it: a
turn of the begin and end handshakes (`Turn`), a frame of a link, a transfer that is counted, or a
change of its links and tables.  `Moves` are several of them in a row.

An action of a session can stop at every frame, when its carrier refuses it.  `Runs x s post` says
that all the same it only makes moves from `s`, and that `post` holds if it gets to its end.  The
frames that a carrier has accepted are kept by a `Recorder` around it.
-/

namespace Amqp

/-! ## Recorders -/

/-- A carrier with a record of the frames that it has accepted. -/
structure Recorder (κ : Type) where
  carrier : κ
  frames : List (UInt16 × Performative) := []

namespace Recorder

variable {κ : Type} [FrameCarrier κ]

/-- Hands a frame to the carrier and records it if it is accepted. -/
def carry (channel : UInt16) (p : Performative) : Action (Recorder κ) Unit := fun r =>
  match FrameCarrier.carry channel p r.carrier with
  | .ok _ carrier => .ok () { carrier, frames := r.frames ++ [(channel, p)] }
  | .error halt carrier => .error halt { r with carrier }

instance : FrameCarrier (Recorder κ) where
  state r := FrameCarrier.state r.carrier
  maxFrameSize r := FrameCarrier.maxFrameSize r.carrier
  carry := carry

end Recorder

namespace Session

/-! ## Moves -/

/-- The turns of the begin and end handshakes, with the frame that goes out before. -/
inductive Turn : State → List Performative → State → Prop
  | begin (v : Begin) : Turn .unmapped [.begin v] .beginSent
  | hearBegin : Turn .unmapped [] .beginReceived
  | answerBegin (v : Begin) : Turn .beginReceived [.begin v] .mapped
  | map : Turn .beginSent [] .mapped
  | hearEnd {state : State} (h : state.isEnding = false) : Turn state [] .endReceived
  | answerEnd : Turn .endReceived [.endFrame {}] .unmapped
  | release {state : State} (h : state.isEnding = true) : Turn state [] .unmapped
  | finish {state : State} (error : Option ErrorInfo) (h : state ≠ .unmapped)
      (h' : state ≠ .discarding) :
      Turn state [.endFrame { error }] (if error.isSome then .discarding else .endSent)
  | abort {state : State} (error : ErrorInfo) :
      Turn state [.endFrame { error := some error }] .discarding
  | discard {state : State} (h : state ≠ .discarding) (h' : state ≠ .unmapped) :
      Turn state [] .discarding

/-- Whether a frame is one of those that links ask for. -/
def IsLinkFrame : Performative → Prop
  | .attach _ | .flow _ | .disposition _ | .detach _ => True
  | _ => False

/-- Whether the same names lead to links in the same places. -/
def SamePlaces (links links' : Table String Link) : Prop :=
  ∀ name, (links'.get? name).map Link.place = (links.get? name).map Link.place

/-- A step that a session takes on its own, with the frames that go out in it. -/
inductive Move : Session → List Performative → Session → Prop
  | turn {s : Session} {ps : List Performative} {state : State} (h : Turn s.state ps state) :
      Move s ps (s.enter state).1
  | meet {s : Session} (channel : UInt16) : Move s [] { s with remoteChannel := some channel }
  | drop {s : Session} (h : s.state = .unmapped) : Move s [] s.dropLinks
  | speak {s : Session} {p : Performative} (h : IsLinkFrame p) : Move s [p] s
  | transfer {s : Session} {t : Transfer} (hwindow : 0 < s.remoteIncomingWindow) :
      Move s [.transfer t] s.countOutgoing
  | replenish {s : Session} : Move s [] { s with incomingWindow := s.targetIncomingWindow }
  | relink {s : Session} {links : Table String Link} (h : SamePlaces s.links links) :
      Move s [] { s with links }
  | register {s : Session} {l : Link} (hname : s.links.get? l.place.name = none)
      (hhandle : s.outputHandles.get? l.place.handle = none)
      (hremote : ∀ h n, l.place.remoteHandle = some h → s.inputHandles.get? h = some n →
        n = l.place.name) : Move s [] (s.register l)
  | reattach {s : Session} {attach : Attach} {l : Link} (hlink : s.links.get? attach.name = some l)
      (hremote : ∀ n, s.inputHandles.get? attach.handle = some n → n = attach.name) :
      Move s [] (s.attachKnown attach l).1
  | remove {s : Session} (name : String) : Move s [] (s.remove name)

/-- Steps in a row, with the frames that go out in them. -/
inductive Moves : Session → List Performative → Session → Prop
  | refl (s : Session) : Moves s [] s
  | tail {s s' s'' : Session} {ps qs : List Performative} (h : Moves s ps s')
      (h' : Move s' qs s'') : Moves s (ps ++ qs) s''

theorem Move.moves {s s' : Session} {ps : List Performative} (h : Move s ps s') : Moves s ps s' :=
  .tail (.refl s) h

theorem Moves.trans {s s' s'' : Session} {ps qs : List Performative} (h : Moves s ps s')
    (h' : Moves s' qs s'') : Moves s (ps ++ qs) s'' := by
  induction h' with
  | refl => rwa [List.append_nil]
  | tail _ hmove ih =>
    rw [← List.append_assoc]
    exact ih.tail hmove

theorem Move.channel_eq {s s' : Session} {ps : List Performative} (h : Move s ps s') :
    s'.channel = s.channel := by
  cases h with
  | remove name =>
    unfold Session.remove
    split <;> rfl
  | _ => rfl

theorem Moves.channel_eq {s s' : Session} {ps : List Performative} (h : Moves s ps s') :
    s'.channel = s.channel := by
  induction h with
  | refl => rfl
  | tail _ hmove ih => exact hmove.channel_eq.trans ih

/-! ### Links in the same places -/

theorem samePlaces_insert {links : Table String Link} {name : String} {l l' : Link}
    (h : links.get? name = some l) (hplace : l'.place = l.place) :
    SamePlaces links (links.insert name l') := by
  intro n
  rw [Table.get?_insert]
  split_ifs with hn
  · rw [hn, h, Option.map_some, Option.map_some, hplace]
  · rfl

theorem samePlaces_mapValues {react : Link → Link} (h : ∀ l, (react l).place = l.place)
    (links : Table String Link) : SamePlaces links (links.mapValues react) := by
  intro n
  rw [Table.get?_mapValues, Option.map_map]
  exact congrArg (Option.map · _) (funext h)

theorem samePlaces_visit {react : Link → Link × List Link.Output}
    (h : ∀ l, (react l).1.place = l.place) (names : List String) (links : Table String Link) :
    SamePlaces links (visit react names links).1 := by
  induction names generalizing links with
  | nil => exact fun _ => rfl
  | cons name names ih =>
    rw [visit]
    cases hl : links.get? name with
    | none => exact ih links
    | some l => exact fun n => (ih _ n).trans (samePlaces_insert hl (h l) n)

theorem move_withLink {s : Session} {name : String} {l l' : Link} (h : s.links.get? name = some l)
    (hplace : l'.place = l.place) : Move s [] (s.withLink name l') :=
  .relink (samePlaces_insert h hplace)

/-! ## Talk -/

/-- A kind of talk: which frames may go out in a row.  None at all are always possible. -/
structure Talk where
  Holds : List Performative → Prop
  nil : Holds []

namespace Talk

/-- No frames. -/
def silent : Talk := ⟨(· = []), rfl⟩

/-- Frames of links. -/
def links : Talk := ⟨fun ps => ∀ p ∈ ps, IsLinkFrame p, fun _ h => by cases h⟩

/-- A Begin, with frames of links after it. -/
def opening : Talk :=
  ⟨fun ps => ps = [] ∨ ∃ v qs, ps = .begin v :: qs ∧ links.Holds qs, Or.inl rfl⟩

/-- A single End. -/
def closing : Talk := ⟨fun ps => ps = [] ∨ ∃ v, ps = [.endFrame v], Or.inl rfl⟩

/-- What frames of the peer are answered with: frames of links, or a single End. -/
def answer : Talk := ⟨fun ps => links.Holds ps ∨ closing.Holds ps, Or.inl links.nil⟩

/-- Transfers that carry on with a delivery and have no delivery id. -/
def continuation : Talk :=
  ⟨fun ps => ∃ ts : List Transfer, ps = ts.map .transfer ∧ ∀ t ∈ ts, t.deliveryId = none,
    [], rfl, by simp⟩

/-- The transfers of one delivery.  The first one has the delivery id. -/
def delivery (id : UInt32) : Talk :=
  ⟨fun ps => ps = [] ∨ ∃ t qs, ps = .transfer t :: qs ∧ t.deliveryId = some id ∧
    continuation.Holds qs, Or.inl rfl⟩

/-- Whether one kind of talk followed by another is of a third kind. -/
def Then (k k' k'' : Talk) : Prop := ∀ ps qs, k.Holds ps → k'.Holds qs → k''.Holds (ps ++ qs)

theorem silent_then (k : Talk) : silent.Then k k := fun ps qs hps hqs => by
  cases hps
  exact hqs

theorem then_silent (k : Talk) : k.Then silent k := fun ps qs hps hqs => by
  cases hqs
  rwa [List.append_nil]

theorem links_then_links : links.Then links links := fun ps qs hps hqs p hp => by
  rcases List.mem_append.1 hp with hp | hp
  · exact hps p hp
  · exact hqs p hp

theorem answer_of_links {ps : List Performative} (h : links.Holds ps) : answer.Holds ps := Or.inl h

theorem answer_of_closing {ps : List Performative} (h : closing.Holds ps) : answer.Holds ps :=
  Or.inr h

theorem of_silent (k : Talk) {ps : List Performative} (h : silent.Holds ps) : k.Holds ps := by
  cases h
  exact k.nil

end Talk

/-! ## Runs -/

section

variable {κ α β : Type} {k k' k'' : Talk}

/-- Whether a result comes about by moves from a session, with the frames that the carrier has
accepted since, which are of a kind of talk, and satisfies a condition if the action has got to its
end. -/
def Ran (k : Talk) (s : Session) (r : Recorder κ) (post : α → Session → Prop)
    (result : EStateM.Result Halt (Session × Recorder κ) α) : Prop :=
  ∃ ps, Moves s ps (stateAfter result).1 ∧
    (stateAfter result).2.frames = r.frames ++ ps.map (s.channel, ·) ∧ k.Holds ps ∧
    ∀ a x, result = .ok a x → post a x.1

/-- Whether an action only makes moves from a session and keeps to a kind of talk, whatever its
carrier does. -/
def Runs (k : Talk) (x : Acting (Recorder κ) α) (s : Session) (post : α → Session → Prop) : Prop :=
  ∀ r, Ran k s r post (x (s, r))

theorem runs_of_ok {x : Acting (Recorder κ) α} {s s' : Session} {a : α}
    {post : α → Session → Prop} (hx : ∀ r, x (s, r) = .ok a (s', r)) (hmoves : Moves s [] s')
    (hpost : post a s') : Runs k x s post := by
  intro r
  rw [hx]
  refine ⟨[], hmoves, (List.append_nil _).symm, k.nil, fun _ _ hok => ?_⟩
  cases hok
  exact hpost

theorem runs_of_error {x : Acting (Recorder κ) α} {s : Session} {halt : Halt}
    (post : α → Session → Prop) (hx : ∀ r, x (s, r) = .error halt (s, r)) : Runs k x s post := by
  intro r
  rw [hx]
  exact ⟨[], .refl s, (List.append_nil _).symm, k.nil, fun _ _ hok => by cases hok⟩

theorem Runs.mono {x : Acting (Recorder κ) α} {s : Session} {post post' : α → Session → Prop}
    (h : Runs k x s post) (hpost : ∀ a s', post a s' → post' a s') : Runs k x s post' := by
  intro r
  obtain ⟨ps, hmoves, hframes, htalk, hok⟩ := h r
  exact ⟨ps, hmoves, hframes, htalk, fun a x hx => hpost a _ (hok a x hx)⟩

theorem Runs.weaken {x : Acting (Recorder κ) α} {s : Session} {post : α → Session → Prop}
    (h : Runs k x s post) (hk : ∀ {ps}, k.Holds ps → k'.Holds ps) : Runs k' x s post := by
  intro r
  obtain ⟨ps, hmoves, hframes, htalk, hok⟩ := h r
  exact ⟨ps, hmoves, hframes, hk htalk, hok⟩

theorem Runs.any {x : Acting (Recorder κ) α} {s : Session} {post : α → Session → Prop}
    (h : Runs k x s post) : Runs k x s fun _ _ => True :=
  h.mono fun _ _ _ => trivial

theorem Runs.bind {x : Acting (Recorder κ) α} {f : α → Acting (Recorder κ) β} {s : Session}
    {post : α → Session → Prop} {post' : β → Session → Prop} (hk : k.Then k' k'')
    (hx : Runs k x s post) (hf : ∀ a s', post a s' → Runs k' (f a) s' post') :
    Runs k'' (x >>= f) s post' := by
  intro r
  obtain ⟨ps, hmoves, hframes, htalk, hok⟩ := hx r
  cases hresult : x (s, r) with
  | error halt x' =>
    rw [hresult] at hmoves hframes
    rw [Action.bind_of_error hresult]
    have htalk' := hk ps [] htalk k'.nil
    rw [List.append_nil] at htalk'
    exact ⟨ps, hmoves, hframes, htalk', fun _ _ h => by cases h⟩
  | ok a x' =>
    obtain ⟨s', r'⟩ := x'
    rw [hresult] at hmoves hframes
    change Moves s ps s' at hmoves
    change r'.frames = _ at hframes
    rw [Action.bind_of_ok hresult]
    obtain ⟨qs, hmoves', hframes', htalk', hok'⟩ := hf a s' (hok a _ hresult) r'
    refine ⟨ps ++ qs, hmoves.trans hmoves', ?_, hk ps qs htalk htalk', hok'⟩
    rw [hframes', hmoves.channel_eq, hframes, List.map_append, List.append_assoc]

open Acting

theorem runs_pure {s : Session} {post : α → Session → Prop} {a : α} (h : post a s) :
    Runs (κ := κ) k (pure a) s post :=
  runs_of_ok (fun _ => rfl) (.refl s) h

theorem runs_raise (f : Fault) (s : Session) (post : α → Session → Prop) :
    Runs (κ := κ) k (Action.raise f) s post :=
  runs_of_error post fun _ => rfl

/-- What comes after a check may use that it has been passed. -/
theorem runs_ofExcept_bind {result : Except Fault α} {f : α → Acting (Recorder κ) β} {s : Session}
    {post : β → Session → Prop} (hf : ∀ a, result = .ok a → Runs k (f a) s post) :
    Runs k (Action.ofExcept result >>= f) s post := by
  cases result with
  | error fault => exact runs_of_error post fun _ => rfl
  | ok a => exact hf a rfl

theorem runs_current_bind {f : Session → Acting (Recorder κ) β} {s : Session}
    {post : β → Session → Prop} (hf : Runs k (f s) s post) : Runs k (current >>= f) s post := hf

theorem runs_update {change : Session → Session} {s : Session} (h : Moves s [] (change s)) :
    Runs (κ := κ) .silent (update change) s fun _ s' => s' = change s :=
  runs_of_ok (fun _ => rfl) h rfl

theorem runs_update_bind {change : Session → Session} {f : Unit → Acting (Recorder κ) β}
    {s : Session} {post : β → Session → Prop} (h : Moves s [] (change s))
    (hf : Runs k (f ()) (change s) post) : Runs k (update change >>= f) s post := by
  refine (runs_update h).bind k.silent_then fun _ s' hs' => ?_
  rw [hs']
  exact hf

variable [FrameCarrier κ]

theorem emit_of_refuses {p : Performative} {s : Session} {r : Recorder κ} {halt : Halt}
    {carrier : κ} (h : FrameCarrier.carry s.channel p r.carrier = .error halt carrier) :
    emit p (s, r) = .error halt (s, { r with carrier }) := by
  have hcarry : FrameCarrier.carry s.channel p r = .error halt { r with carrier } := by
    show Recorder.carry s.channel p r = _
    unfold Recorder.carry
    rw [h]
  unfold emit
  dsimp only
  rw [hcarry]

theorem emit_of_accepts {p : Performative} {s : Session} {r : Recorder κ} {carrier : κ}
    (h : FrameCarrier.carry s.channel p r.carrier = .ok () carrier) :
    emit p (s, r) = .ok () (s, { carrier, frames := r.frames ++ [(s.channel, p)] }) := by
  have hcarry : FrameCarrier.carry s.channel p r =
      .ok () { carrier, frames := r.frames ++ [(s.channel, p)] } := by
    show Recorder.carry s.channel p r = _
    unfold Recorder.carry
    rw [h]
  unfold emit
  dsimp only
  rw [hcarry]

theorem emit_cases (p : Performative) (s : Session) (r : Recorder κ) :
    (∃ halt carrier, emit p (s, r) = .error halt (s, { r with carrier })) ∨
      ∃ carrier, emit p (s, r) =
        .ok () (s, { carrier, frames := r.frames ++ [(s.channel, p)] }) := by
  cases hcarry : FrameCarrier.carry s.channel p r.carrier with
  | error halt carrier => exact Or.inl ⟨halt, carrier, emit_of_refuses hcarry⟩
  | ok _ carrier => exact Or.inr ⟨carrier, emit_of_accepts hcarry⟩

/-- A frame goes out together with the change that follows it, or nothing has moved. -/
theorem runs_emit_bind {p : Performative} {f : Unit → Acting (Recorder κ) β} {s s' : Session}
    {rest : Acting (Recorder κ) β} {post : β → Session → Prop} (h : Move s [p] s')
    (hf : ∀ r, f () (s, r) = rest (s', r)) (hrest : Runs k rest s' post)
    (hk : ∀ ps, k.Holds ps → k'.Holds (p :: ps)) : Runs k' (emit p >>= f) s post := by
  intro r
  rcases emit_cases p s r with ⟨halt, carrier, hemit⟩ | ⟨carrier, hemit⟩
  · rw [Action.bind_of_error hemit]
    exact ⟨[], .refl s, (List.append_nil _).symm, k'.nil, fun _ _ hok => by cases hok⟩
  · rw [Action.bind_of_ok hemit, hf]
    obtain ⟨ps, hmoves, hframes, htalk, hok⟩ :=
      hrest { carrier, frames := r.frames ++ [(s.channel, p)] }
    refine ⟨p :: ps, h.moves.trans hmoves, ?_, hk ps htalk, hok⟩
    rw [hframes, h.channel_eq, List.append_assoc]
    rfl

/-! ### Outputs of links -/

theorem runs_emit_linkFrame {p : Performative} (h : IsLinkFrame p) (s : Session) :
    Runs (κ := κ) .links (emit p) s fun _ s' => s' = s := by
  have hbind : (emit p : Acting (Recorder κ) Unit) = emit p >>= pure := (bind_pure _).symm
  rw [hbind]
  refine runs_emit_bind (k := .links) (.speak h) (fun _ => rfl) (runs_pure rfl)
    fun ps hps q hq => ?_
  rcases List.mem_cons.1 hq with rfl | hq
  · exact h
  · exact hps q hq

theorem runs_sendFlow (flow : Option Flow) (s : Session) :
    Runs (κ := κ) .links (sendFlow flow) s fun _ s' => s' = s :=
  runs_current_bind (runs_emit_linkFrame (p := .flow _) trivial s)

theorem runs_sendOutput (output : Link.Output) (s : Session) :
    Runs (κ := κ) .links (sendOutput output) s fun _ s' => s' = s := by
  cases output with
  | attach v => exact runs_emit_linkFrame (p := .attach v) trivial s
  | flow v => exact runs_sendFlow _ s
  | disposition v => exact runs_emit_linkFrame (p := .disposition v) trivial s
  | detach v => exact runs_emit_linkFrame (p := .detach v) trivial s

theorem runs_sendOutputs (outputs : List Link.Output) (s : Session) :
    Runs (κ := κ) .links (sendOutputs outputs) s fun _ s' => s' = s := by
  induction outputs with
  | nil => exact runs_pure rfl
  | cons output outputs ih =>
    refine (runs_sendOutput output s).bind Talk.links_then_links fun _ s' hs' => ?_
    rw [hs']
    exact ih

theorem runs_commit {change : Session × List Link.Output} {s : Session}
    (h : Moves s [] change.1) :
    Runs (κ := κ) .links (commit change) s fun _ s' => s' = change.1 :=
  runs_update_bind h (runs_sendOutputs _ _)

/-! ## Handshakes -/

/-- The links have something to say only when the session is mapped. -/
theorem outputs_enter {state : State} (h : state ≠ .mapped) (s : Session) :
    (s.enter state).2 = [] := by
  have hend : ∀ e : Link.Endpoint, (e.followSession state).2 = [] := by
    intro e
    cases state with
    | mapped => exact absurd rfl h
    | _ => rfl
  unfold enter
  refine List.flatMap_eq_nil_iff.2 fun l _ => ?_
  cases l with
  | sender v => exact hend v.endpoint
  | receiver v => exact hend v.endpoint

theorem Turn.ne_mapped {state state' : State} {v : End} (h : Turn state [.endFrame v] state') :
    state' ≠ .mapped := by
  cases h with
  | finish error => split <;> simp
  | _ => simp

theorem runs_transition {state : State} {s : Session} (h : Turn s.state [] state) :
    Runs (κ := κ) .links (transition state) s fun _ _ => True :=
  runs_current_bind (runs_commit (Move.turn h).moves).any

theorem transition_eq {state : State} (h : state ≠ .mapped) (s : Session) (r : Recorder κ) :
    transition state (s, r) = .ok () ((s.enter state).1, r) := by
  have houtputs : (transition state : Acting (Recorder κ) Unit) (s, r) =
      sendOutputs (s.enter state).2 ((s.enter state).1, r) := rfl
  rw [houtputs, outputs_enter h]
  rfl

theorem runs_transition_bind {state : State} {s : Session} {f : Unit → Acting (Recorder κ) β}
    {post : β → Session → Prop} (hstate : state ≠ .mapped) (h : Turn s.state [] state)
    (hf : Runs k (f ()) (s.enter state).1 post) : Runs k (transition state >>= f) s post := by
  have hsilent : Runs (κ := κ) .silent (transition state) s fun _ s' => s' = (s.enter state).1 :=
    runs_of_ok (transition_eq hstate s) (Move.turn h).moves rfl
  refine hsilent.bind k.silent_then fun _ s' hs' => ?_
  rw [hs']
  exact hf

/-- A Begin goes out together with the turn that follows it. -/
theorem runs_begin_transition {state : State} {s : Session}
    (h : Turn s.state [.begin s.toBegin] state) :
    Runs (κ := κ) .opening (sendBegin >>= fun _ => transition state) s fun _ _ => True := by
  have hrest : Runs (κ := κ) .links (sendOutputs (s.enter state).2) (s.enter state).1
      fun _ s' => s' = (s.enter state).1 := runs_sendOutputs _ _
  have hrun : Runs (κ := κ) .opening
      (emit (.begin s.toBegin) >>= fun _ => transition state) s
      fun _ s' => s' = (s.enter state).1 :=
    runs_emit_bind (.turn h) (fun _ => rfl) hrest
      fun ps hps => Or.inr ⟨s.toBegin, ps, rfl, hps⟩
  exact hrun.any

/-- An End goes out together with the turn that follows it, and no other frame. -/
theorem runs_end_transition_bind {v : End} {state : State} {s : Session}
    {f : Unit → Acting (Recorder κ) β} {post : β → Session → Prop}
    (h : Turn s.state [.endFrame v] state) (hf : Runs .silent (f ()) (s.enter state).1 post) :
    Runs .closing (emit (.endFrame v) >>= fun _ => transition state >>= f) s post := by
  refine runs_emit_bind (.turn h) (fun r => Action.bind_of_ok (transition_eq h.ne_mapped s r)) hf
    fun ps hps => ?_
  cases hps
  exact Or.inr ⟨v, rfl⟩

theorem runs_begin (wait : Patience) (s : Session) :
    Runs (κ := κ) .opening (begin wait) s fun _ _ => True := by
  unfold begin
  refine runs_current_bind ?_
  by_cases hallowed : (!wait.waits && !s.allowPipelinedOpen) = true
  · rw [if_pos hallowed]
    exact runs_of_error _ fun _ => rfl
  rw [if_neg hallowed]
  by_cases hstate : s.state ≠ .unmapped
  · rw [if_pos hstate]
    exact runs_of_error _ fun _ => rfl
  rw [if_neg hstate]
  have hturn : Turn s.state [.begin s.toBegin] .beginSent := by
    rw [not_not.1 hstate]
    exact .begin _
  exact runs_begin_transition hturn

theorem runs_finish (error : Option ErrorInfo) (s : Session) :
    Runs (κ := κ) (if s.state ≠ .unmapped ∧ s.state ≠ .discarding then .closing else .silent)
      (finish error) s fun _ _ => True := by
  unfold finish
  refine runs_current_bind ?_
  by_cases hstate : s.state ≠ .unmapped ∧ s.state ≠ .discarding
  · rw [if_pos hstate, if_pos hstate, ← bind_pure (transition _)]
    exact runs_end_transition_bind (.finish error hstate.1 hstate.2) (runs_pure trivial)
  · rw [if_neg hstate, if_neg hstate]
    exact runs_pure trivial

theorem runs_abort (error : ErrorInfo) (f : Fault) (s : Session) :
    Runs (κ := κ) .closing (abort error f) s fun _ _ => True := by
  unfold abort sendEnd
  exact runs_end_transition_bind (.abort error) (runs_raise f _ _)

/-- What the peer's Begin says is learned before any move.  A Begin that is not an answer is
answered by one. -/
theorem ran_onBegin (remoteChannel : UInt16) (v : Begin) (s : Session) (r : Recorder κ) :
    Ran (if s.state = .beginSent then .links else .opening) (s.learnBegin v) r (fun _ _ => True)
      (onBegin remoteChannel v (s, r)) := by
  have hsame : (s.learnBegin v).state = s.state := rfl
  unfold onBegin
  rw [update_bind]
  refine runs_current_bind (s := s.learnBegin v) ?_ r
  rw [← hsame]
  cases hstate : (s.learnBegin v).state with
  | beginSent =>
    have hturn : Turn (s.learnBegin v).state [] .mapped := by
      rw [hstate]
      exact .map
    rw [if_pos rfl]
    refine runs_update_bind (Move.meet remoteChannel).moves ?_
    exact runs_transition hturn
  | unmapped =>
    have hturn : Turn (s.learnBegin v).state [] .beginReceived := by
      rw [hstate]
      exact .hearBegin
    rw [if_neg (by simp)]
    refine runs_update_bind (Move.meet remoteChannel).moves ?_
    refine runs_transition_bind (by simp) hturn (runs_begin_transition ?_)
    exact .answerBegin _
  | _ => exact runs_pure trivial

theorem runs_onEnd (s : Session) :
    Runs (κ := κ) (if s.state.isEnding then .silent else .closing) onEnd s fun _ _ => True := by
  unfold onEnd
  refine runs_current_bind ?_
  dsimp only
  cases hstate : s.state.isEnding with
  | false =>
    refine runs_transition_bind (by simp) (.hearEnd hstate) ?_
    exact runs_end_transition_bind .answerEnd (runs_update (Move.drop rfl).moves).any
  | true =>
    refine runs_transition_bind (by simp) (.release hstate) ?_
    exact (runs_update (Move.drop rfl).moves).any

end

end Session

end Amqp
