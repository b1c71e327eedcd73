import Amqp.Proofs.Session.Events
import Mathlib.Data.List.Chain

/-!
# The end of a session

A session that has sent an End should be silent until it begins anew: `Orderly` says that only a
Begin follows an End.  What is said in one event is orderly (`orderly_of_talk`), and a session whose
last frame is an End is not mapped (`Closed.after`), so that its owner can neither send nor attach.
But other calls, and frames that are still on the way from the peer, are answered all the same, and
a session can even be ended twice.  `Event.isQuiet` tells which events keep the silence.
-/

namespace Amqp.Session

/-! ## Frames in order -/

/-- Whether a frame is a Begin. -/
def isBegin : Performative → Bool
  | .begin _ => true
  | _ => false

/-- Whether a frame is an End. -/
def isEnd : Performative → Bool
  | .endFrame _ => true
  | _ => false

/-- Whether an End is only followed by a Begin. -/
def Orderly (frames : List (UInt16 × Performative)) : Prop :=
  frames.IsChain fun f g => isEnd f.2 = true → isBegin g.2 = true

instance (frames : List (UInt16 × Performative)) : Decidable (Orderly frames) :=
  inferInstanceAs (Decidable (List.IsChain _ frames))

/-- Whether the last frame is an End. -/
def isOver (frames : List (UInt16 × Performative)) : Bool := frames.getLast?.any (isEnd ·.2)

theorem isOver_append_singleton (frames : List (UInt16 × Performative))
    (f : UInt16 × Performative) : isOver (frames ++ [f]) = isEnd f.2 := by
  simp [isOver]

theorem orderly_of_forall {frames : List (UInt16 × Performative)}
    (h : ∀ f ∈ frames, isEnd f.2 = false) : Orderly frames := by
  induction frames with
  | nil => exact .nil
  | cons f frames ih =>
    refine List.isChain_cons.2 ⟨fun g _ hf => ?_, ih fun g hg => h g (List.mem_cons_of_mem f hg)⟩
    rw [h f List.mem_cons_self] at hf
    cases hf

theorem isEnd_of_links {ps : List Performative} (h : Talk.links.Holds ps) :
    ∀ p ∈ ps, isEnd p = false := by
  intro p hp
  have hlink := h p hp
  cases p <;> first | rfl | exact absurd hlink id

/-- In one event no End goes out, or nothing else. -/
theorem isEnd_or_eq_of_talk {κ : Type} {s : Session} {ev : Event κ} {ps : List Performative}
    (h : (ev.talk s).Holds ps) : (∀ p ∈ ps, isEnd p = false) ∨ ∃ v, ps = [.endFrame v] := by
  rcases Event.holds_talk h with h | (rfl | ⟨v, qs, rfl, hqs⟩) | (rfl | ⟨v, rfl⟩) |
    ⟨-, rfl | ⟨t, qs, rfl, -, us, rfl, -⟩⟩
  · exact Or.inl (isEnd_of_links h)
  · exact Or.inl (by simp)
  · exact Or.inl (List.forall_mem_cons.2 ⟨rfl, isEnd_of_links hqs⟩)
  · exact Or.inl (by simp)
  · exact Or.inr ⟨v, rfl⟩
  · exact Or.inl (by simp)
  · exact Or.inl (by simp [isEnd])

theorem orderly_of_talk {κ : Type} (channel : UInt16) {s : Session} {ev : Event κ}
    {ps : List Performative} (h : (ev.talk s).Holds ps) : Orderly (ps.map (channel, ·)) := by
  rcases isEnd_or_eq_of_talk h with h | ⟨v, rfl⟩
  · refine orderly_of_forall fun f hf => ?_
    obtain ⟨p, hp, rfl⟩ := List.mem_map.1 hf
    exact h p hp
  · exact .singleton _

/-! ## States after an End -/

/-- Whether a session has begun by itself or is mapped. -/
def IsLive (state : State) : Prop := state = .beginSent ∨ state = .mapped

/-- Whether a session is not live once its last frame is an End. -/
def Closed (s : Session) (frames : List (UInt16 × Performative)) : Prop :=
  isOver frames = true → ¬ IsLive s.state

/-- A turn of the handshakes makes a session live only by a Begin or from a live state. -/
theorem Turn.live_cases {state state' : State} {ps : List Performative}
    (h : Turn state ps state') :
    (ps = [] ∧ (IsLive state' → IsLive state)) ∨ (∃ v, ps = [.begin v]) ∨
      ∃ v, ps = [.endFrame v] ∧ ¬ IsLive state' := by
  cases h with
  | begin v | answerBegin v => exact Or.inr (Or.inl ⟨v, rfl⟩)
  | map => exact Or.inl ⟨rfl, fun _ => Or.inl rfl⟩
  | finish error =>
    refine Or.inr (Or.inr ⟨_, rfl, ?_⟩)
    split <;> simp [IsLive]
  | answerEnd | abort => exact Or.inr (Or.inr ⟨_, rfl, by simp [IsLive]⟩)
  | _ => exact Or.inl ⟨rfl, by simp [IsLive]⟩

namespace Closed

variable {s s' : Session} {ps : List Performative} {frames : List (UInt16 × Performative)}

theorem of_frame {p : Performative} (h : isEnd p = false) :
    Closed s' (frames ++ [p].map (s.channel, ·)) := by
  intro hover
  change isOver (frames ++ [(s.channel, p)]) = true at hover
  rw [isOver_append_singleton, h] at hover
  cases hover

theorem move (h : Closed s frames) (hmove : Move s ps s') :
    Closed s' (frames ++ ps.map (s.channel, ·)) := by
  have hsame (hps : ps = []) (hlive : IsLive s'.state → IsLive s.state) :
      Closed s' (frames ++ ps.map (s.channel, ·)) := by
    rw [hps, List.map_nil, List.append_nil]
    exact fun hover hlive' => h hover (hlive hlive')
  cases hmove with
  | turn hturn =>
    obtain ⟨hps, hlive⟩ | ⟨v, rfl⟩ | ⟨v, -, hlive⟩ := hturn.live_cases
    · exact hsame hps hlive
    · exact of_frame rfl
    · exact fun _ => hlive
  | speak hlink => exact of_frame (isEnd_of_links (List.forall_mem_singleton.2 hlink) _ (by simp))
  | transfer => exact of_frame rfl
  | remove name =>
    refine hsame rfl ?_
    unfold Session.remove
    split <;> exact id
  | _ => exact hsame rfl id

theorem moves (h : Closed s frames) (hmoves : Moves s ps s') :
    Closed s' (frames ++ ps.map (s.channel, ·)) := by
  induction hmoves with
  | refl => rwa [List.map_nil, List.append_nil]
  | tail hmoves hmove ih =>
    rw [List.map_append, ← List.append_assoc, ← hmoves.channel_eq]
    rw [← hmoves.channel_eq] at ih
    exact ih.move hmove

end Closed

/-! ## Quiet events -/

section

variable {κ : Type}

/-- Whether a session that has sent an End keeps silent upon an event, or begins anew.  It does not
upon a call that ends it again or speaks for a link, nor upon a frame of a link. -/
def Event.isQuiet (s : Session) : Event κ → Bool
  | .finish _ => s.state = .unmapped ∨ s.state = .discarding
  | .detach .. | .sendFlow _ | .grantCredit .. | .settle .. => false
  | .dispatch _ (.endFrame _) => s.state.isEnding
  | .dispatch _ (.attach _) | .dispatch _ (.flow _) | .dispatch _ (.transfer _)
  | .dispatch _ (.disposition _) | .dispatch _ (.detach _) => false
  | _ => true

theorem Event.opening_of_isQuiet {s : Session} {ev : Event κ} {ps : List Performative}
    (hquiet : ev.isQuiet s = true) (hlive : ¬ IsLive s.state) (h : (ev.talk s).Holds ps) :
    Talk.opening.Holds ps := by
  have hmapped : s.state ≠ .mapped := fun hstate => hlive (Or.inr hstate)
  have hsent : s.state ≠ .beginSent := fun hstate => hlive (Or.inl hstate)
  have hsilent (hps : Talk.silent.Holds ps) : Talk.opening.Holds ps := Talk.of_silent _ hps
  cases ev with
  | begin wait => exact h
  | finish error =>
    have hover : ¬ (s.state ≠ .unmapped ∧ s.state ≠ .discarding) := by
      have hstate : s.state = .unmapped ∨ s.state = .discarding := of_decide_eq_true hquiet
      tauto
    simp only [talk, if_neg hover] at h
    exact hsilent h
  | attach name | send | sendDelivery =>
    simp only [talk, if_neg hmapped] at h
    exact hsilent h
  | detach | sendFlow | grantCredit | settle => cases hquiet
  | dispatch remoteChannel p =>
    cases p with
    | begin v =>
      simp only [talk, if_neg hsent] at h
      exact h
    | endFrame v =>
      have hending : s.state.isEnding = true := hquiet
      simp only [talk, if_pos hending] at h
      exact hsilent h
    | openFrame | close => exact hsilent h
    | _ => cases hquiet
  | _ => exact hsilent h

variable [FrameCarrier κ]

/-- Whether a run has quiet events only while the last frame is an End. -/
def isQuietAfterEnd : List (Event κ) → Session × Recorder κ → Bool
  | [], _ => true
  | ev :: evs, x =>
    (!isOver x.2.frames || ev.isQuiet x.1) && isQuietAfterEnd evs (after x ev)

theorem Closed.after {x : Session × Recorder κ} (h : Closed x.1 x.2.frames) (ev : Event κ) :
    Closed (after x ev).1 (after x ev).2.frames := by
  obtain ⟨ps, hmoves, hframes, -⟩ := ran_perform ev x.1 x.2
  have hprepared : Closed (ev.prepare x.1) x.2.frames := by
    unfold Closed
    rwa [Event.state_prepare]
  have hclosed := hprepared.moves hmoves
  rw [← hframes] at hclosed
  exact hclosed

theorem orderly_after {x : Session × Recorder κ} {ev : Event κ} (h : Orderly x.2.frames)
    (hclosed : Closed x.1 x.2.frames) (hquiet : isOver x.2.frames = true → ev.isQuiet x.1 = true) :
    Orderly (after x ev).2.frames := by
  obtain ⟨ps, -, hframes, htalk, -⟩ := ran_perform ev x.1 x.2
  change Orderly (stateAfter (ev.perform (x.1, x.2))).2.frames
  rw [hframes]
  refine List.IsChain.append h (orderly_of_talk _ htalk) fun f hf g hg hend => ?_
  have hover : isOver x.2.frames = true := by
    unfold isOver
    rw [Option.mem_def.1 hf]
    exact hend
  obtain rfl | ⟨v, qs, rfl, -⟩ :=
    Event.opening_of_isQuiet (hquiet hover) (hclosed hover) htalk
  · cases hg
  · cases hg
    rfl

theorem orderly_run {x : Session × Recorder κ} {evs : List (Event κ)} (h : Orderly x.2.frames)
    (hclosed : Closed x.1 x.2.frames) (hquiet : isQuietAfterEnd evs x = true) :
    Orderly (run evs x).2.frames := by
  induction evs generalizing x with
  | nil => exact h
  | cons ev evs ih =>
    obtain ⟨hev, hevs⟩ := Bool.and_eq_true_iff.1 hquiet
    refine ih (orderly_after h hclosed fun hover => ?_) (hclosed.after ev) hevs
    rw [hover] at hev
    exact hev

/-- Once a session has sent an End it sends nothing until it sends a new Begin, if only quiet events
come in between. -/
theorem orderly_of_run (o : Origin κ) (evs : List (Event κ))
    (h : isQuietAfterEnd evs o.start = true) : Orderly (run evs o.start).2.frames :=
  orderly_run .nil (fun hover => by cases hover) h

end

/-- A session is begun by the peer and ended, and then begun by the peer again. -/
def begunTwice : List (Event Outbox) :=
  [.dispatch 5 (.begin peerBegin), .addSender "x" "queue" none, .attach "sender-link-x",
    .finish none, .attach "sender-link-x", .dispatch 5 (.endFrame {}),
    .dispatch 6 (.begin peerBegin)]

theorem orderly_of_begunTwice :
    isQuietAfterEnd begunTwice plainOrigin.start = true ∧
      Orderly (run begunTwice plainOrigin.start).2.frames ∧
      (run begunTwice plainOrigin.start).2.frames.map (isEnd ·.2) = [false, false, true, false] :=
  ⟨by decide +kernel, orderly_of_run plainOrigin begunTwice (by decide +kernel), by decide +kernel⟩

/-- A session is begun by the peer and ended, and ended again before the peer has answered. -/
def endedTwice : List (Event Outbox) :=
  [.dispatch 5 (.begin peerBegin), .finish none, .finish none]

/-- A second End goes out, though no Begin has come after the first. -/
theorem not_orderly_of_endedTwice : ¬ Orderly (run endedTwice plainOrigin.start).2.frames := by
  decide +kernel

end Amqp.Session
