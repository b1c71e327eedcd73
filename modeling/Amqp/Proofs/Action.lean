import Amqp.Action

/-!
# What actions keep

`Keeps I x` says that a condition on the state that holds before an action also holds after it, when
it has got to its end and when it has stopped short.  Parts of an action that keep a condition make
an action that keeps it (`Keeps.bind`).
-/

namespace Amqp.Action

variable {σ τ α β : Type} {I J : σ → Prop}

/-- Whether a condition holds of the state that a result leaves. -/
def Leaves (I : σ → Prop) : EStateM.Result Halt σ α → Prop
  | .ok _ s => I s
  | .error _ s => I s

/-- Whether a condition that holds before an action holds after it, also if it stops short. -/
def Keeps (I : σ → Prop) (x : Action σ α) : Prop := ∀ s, I s → Leaves I (x s)

theorem Leaves.mono {r : EStateM.Result Halt σ α} (h : Leaves I r) (hIJ : ∀ s, I s → J s) :
    Leaves J r := by
  cases r <;> exact hIJ _ h

theorem bind_eq_ok {x : Action σ α} {f : α → Action σ β} {s t : σ} {b : β}
    (h : (x >>= f) s = .ok b t) : ∃ a s', x s = .ok a s' ∧ f a s' = .ok b t := by
  cases hresult : x s with
  | ok a s' =>
    rw [bind_of_ok hresult] at h
    exact ⟨a, s', rfl, h⟩
  | error halt s' =>
    rw [bind_of_error hresult] at h
    cases h

theorem ofExcept_bind_eq_ok {result : Except Fault α} {f : α → Action σ β} {s t : σ} {b : β}
    (h : (ofExcept result >>= f) s = .ok b t) : ∃ a, result = .ok a ∧ f a s = .ok b t := by
  cases result with
  | error fault => cases h
  | ok a => exact ⟨a, rfl, h⟩

/-- What follows an action depends on its result only. -/
theorem bind_congr_apply {x x' : Action σ α} {f : α → Action σ β} {s : σ} (h : x s = x' s) :
    (x >>= f) s = (x' >>= f) s := by
  cases hx : x' s with
  | ok a t => rw [bind_of_ok hx, bind_of_ok (h.trans hx)]
  | error halt t => rw [bind_of_error hx, bind_of_error (h.trans hx)]

theorem leaves_bind {x : Action σ α} {f : α → Action σ β} {s : σ} (hx : Leaves I (x s))
    (hf : ∀ a t, x s = .ok a t → I t → Leaves J (f a t)) (hIJ : ∀ t, I t → J t) :
    Leaves J ((x >>= f) s) := by
  cases hresult : x s with
  | error halt t =>
    rw [hresult] at hx
    rw [bind_of_error hresult]
    exact hIJ t hx
  | ok a t =>
    rw [hresult] at hx
    rw [bind_of_ok hresult]
    exact hf a t hresult hx

theorem Keeps.bind {x : Action σ α} {f : α → Action σ β} (hx : Keeps I x)
    (hf : ∀ a, Keeps I (f a)) : Keeps I (x >>= f) := fun s hs =>
  leaves_bind (hx s hs) (fun a t _ ht => hf a t ht) fun _ => id

theorem keeps_pure (a : α) : Keeps I (pure a) := fun _ hs => hs

theorem keeps_raise (f : Fault) : Keeps I (raise f : Action σ α) := fun _ hs => hs

theorem keeps_ofExcept (result : Except Fault α) : Keeps I (ofExcept result) := by
  cases result with
  | error f => exact keeps_raise f
  | ok a => exact keeps_pure a

theorem leaves_ofExcept_bind {result : Except Fault α} {f : α → Action σ β} {s : σ} (hs : I s)
    (hf : ∀ a, result = .ok a → Leaves I (f a s)) : Leaves I ((ofExcept result >>= f) s) := by
  cases result with
  | error fault => exact hs
  | ok a => exact hf a rfl

theorem keeps_get_bind {f : σ → Action σ β} (hf : ∀ s, I s → Leaves I (f s s)) :
    Keeps I (get >>= f) := fun s hs => by
  rw [get_bind]
  exact hf s hs

theorem keeps_modify {change : σ → σ} (h : ∀ s, I s → I (change s)) :
    Keeps I (modify change : Action σ Unit) := h

theorem Keeps.tolerant {x : Action σ Unit} (hx : Keeps I x) : Keeps I (tolerant x) := by
  intro s hs
  have h := hx s hs
  unfold Action.tolerant
  cases hresult : x s with
  | ok a t =>
    rw [hresult] at h
    exact h
  | error halt t =>
    rw [hresult] at h
    cases halt <;> exact h

/-- An action that passes over its faults only stops short while it waits. -/
theorem eq_stalled_of_tolerant {x : Action σ Unit} {s t : σ} {halt : Halt}
    (h : Action.tolerant x s = .error halt t) : halt = .stalled := by
  unfold Action.tolerant at h
  cases hresult : x s with
  | ok a t' =>
    rw [hresult] at h
    cases h
  | error halt' t' =>
    rw [hresult] at h
    cases halt' <;> cases h
    rfl

/-- What an action on a part keeps is kept of the whole if it only depends on the part. -/
theorem Keeps.within {part : σ → τ} {replace : τ → σ → σ} {x : Action τ α} {J : τ → Prop}
    (hx : Keeps J x) (hpart : ∀ s, I s → J (part s))
    (hreplace : ∀ s t, I s → J t → I (replace t s)) :
    Keeps I (within part replace x) := by
  intro s hs
  have h := hx (part s) (hpart s hs)
  unfold Action.within
  cases hresult : x (part s) with
  | ok a t =>
    rw [hresult] at h
    exact hreplace s t hs h
  | error halt t =>
    rw [hresult] at h
    exact hreplace s t hs h

end Amqp.Action
