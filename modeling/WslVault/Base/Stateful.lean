import Mathlib.Init

/-!
# Fallible computations over a state

A computation of `EStateM` that fails keeps what it has written before. Its outcomes are
described by two conditions, on its result and on its failure, each with the state it
leaves. `Outcome` computes along the computation, one rule for each way to build one.
-/

namespace WslVault.Base

variable {ε ε' σ α β : Type}

/-- Run from `s`, the computation returns with `Q` or fails with `E`. -/
def Outcome (m : EStateM ε σ α) (s : σ) (Q : α → σ → Prop) (E : ε → σ → Prop) : Prop :=
  match m.run s with
  | .ok a s' => Q a s'
  | .error e s' => E e s'

/-- Whatever comes of it, the computation leaves a state with `P`. -/
abbrev Leaves (m : EStateM ε σ α) (s : σ) (P : σ → Prop) : Prop :=
  Outcome m s (fun _ => P) fun _ => P

/-- What comes of the computation, and the state it leaves, are related by `R`. -/
abbrev Comes (m : EStateM ε σ α) (s : σ) (R : σ → Except ε α → Prop) : Prop :=
  Outcome m s (fun a s' => R s' (.ok a)) fun e s' => R s' (.error e)

/-- The computation as a step of a state machine: the state it leaves, and its
result or failure. -/
def perform (m : EStateM ε σ α) (s : σ) : σ × Except ε α :=
  match m.run s with
  | .ok a s' => (s', .ok a)
  | .error e s' => (s', .error e)

variable {s : σ} {Q Q' : α → σ → Prop} {E E' : ε → σ → Prop}

variable {m : EStateM ε σ α} {a : α} {s' : σ}

theorem outcome_iff_perform :
    Outcome m s Q E ↔ (∀ a, (perform m s).2 = .ok a → Q a (perform m s).1) ∧
      ∀ e, (perform m s).2 = .error e → E e (perform m s).1 := by
  unfold Outcome perform
  cases m.run s with
  | ok a s' => simp
  | error e s' => simp

theorem perform_eq_ok :
    perform m s = (s', .ok a) ↔ Outcome m s (fun b t => b = a ∧ t = s') fun _ _ => False := by
  unfold Outcome perform
  cases m.run s with
  | ok b t => simp [and_comm]
  | error e t => simp

theorem perform_eq_error {e : ε} :
    perform m s = (s', .error e) ↔ Outcome m s (fun _ _ => False) fun d t => d = e ∧ t = s' := by
  unfold Outcome perform
  cases m.run s with
  | ok a t => simp
  | error d t => simp [and_comm]

theorem Comes.perform {R : σ → Except ε α → Prop} (h : Comes m s R) :
    R (perform m s).1 (perform m s).2 := by
  have h := outcome_iff_perform.mp h
  cases hresult : (Base.perform m s).2 with
  | ok a => exact h.1 a hresult
  | error e => exact h.2 e hresult

variable {P : σ → Prop}

theorem Outcome.left (h : Leaves m s P) : P (perform m s).1 :=
  Comes.perform (R := fun s' _ => P s') h

theorem Outcome.mono (h : Outcome m s Q E) (hQ : ∀ a s', Q a s' → Q' a s')
    (hE : ∀ e s', E e s' → E' e s') : Outcome m s Q' E' := by
  unfold Outcome at h ⊢
  split at h
  · next a s' _ => exact hQ a s' h
  · next e s' _ => exact hE e s' h

theorem Leaves.imp {P' : σ → Prop} (h : Leaves m s P) (hP : ∀ s', P s' → P' s') :
    Leaves m s P' :=
  h.mono (fun _ => hP) fun _ => hP

theorem Outcome.and (h : Outcome m s Q E) (h' : Outcome m s Q' E') :
    Outcome m s (fun a t => Q a t ∧ Q' a t) fun e t => E e t ∧ E' e t := by
  unfold Outcome at h h' ⊢
  cases hrun : m.run s with
  | ok a t =>
    rw [hrun] at h h'
    exact ⟨h, h'⟩
  | error e t =>
    rw [hrun] at h h'
    exact ⟨h, h'⟩

theorem outcome_of_forall (hQ : ∀ a s', Q a s') (hE : ∀ e s', E e s') : Outcome m s Q E := by
  unfold Outcome
  split
  · exact hQ _ _
  · exact hE _ _

theorem Outcome.returns (h : Outcome m s Q fun _ _ => False) :
    ∃ a, (perform m s).2 = .ok a ∧ Q a (perform m s).1 := by
  have h := outcome_iff_perform.mp h
  cases hresult : (perform m s).2 with
  | ok a => exact ⟨a, rfl, h.1 a hresult⟩
  | error e => exact (h.2 e hresult).elim

theorem Outcome.fails (h : Outcome m s (fun _ _ => False) E) :
    ∃ e, (perform m s).2 = .error e ∧ E e (perform m s).1 := by
  have h := outcome_iff_perform.mp h
  cases hresult : (perform m s).2 with
  | ok a => exact (h.1 a hresult).elim
  | error e => exact ⟨e, rfl, h.2 e hresult⟩

@[simp] theorem outcome_pure (a : α) : Outcome (pure a : EStateM ε σ α) s Q E ↔ Q a s := Iff.rfl

@[simp] theorem outcome_throw (e : ε) : Outcome (throw e : EStateM ε σ α) s Q E ↔ E e s := Iff.rfl

theorem Outcome.pure (h : Q a s) : Outcome (pure a : EStateM ε σ α) s Q E := h

theorem Outcome.throw {e : ε} (h : E e s) : Outcome (throw e : EStateM ε σ α) s Q E := h

@[simp] theorem outcome_get {Q : σ → σ → Prop} :
    Outcome (get : EStateM ε σ σ) s Q E ↔ Q s s := Iff.rfl

@[simp] theorem outcome_modify (f : σ → σ) {Q : Unit → σ → Prop} :
    Outcome (modify f : EStateM ε σ Unit) s Q E ↔ Q () (f s) := Iff.rfl

@[simp] theorem outcome_set (t : σ) {Q : PUnit → σ → Prop} :
    Outcome (set t : EStateM ε σ PUnit) s Q E ↔ Q ⟨⟩ t := Iff.rfl

variable {f : α → EStateM ε σ β}

@[simp] theorem outcome_bind {Q : β → σ → Prop} :
    Outcome (m >>= f) s Q E ↔ Outcome m s (fun a s' => Outcome (f a) s' Q E) E := by
  simp only [Outcome, EStateM.run, bind, EStateM.bind]
  cases m s with
  | ok a s' => exact Iff.rfl
  | error e s' => exact Iff.rfl

theorem Outcome.bind {Q : β → σ → Prop} (h : Outcome m s Q' E)
    (hf : ∀ a s', Q' a s' → Outcome (f a) s' Q E) : Outcome (m >>= f) s Q E :=
  outcome_bind.mpr (h.mono hf fun _ _ h => h)

theorem outcome_bind_of_ok {Q : β → σ → Prop} (h : perform m s = (s', .ok a)) :
    Outcome (m >>= f) s Q E ↔ Outcome (f a) s' Q E := by
  rw [outcome_bind, outcome_iff_perform, h]
  simp

@[simp] theorem outcome_map (f : α → β) {Q : β → σ → Prop} :
    Outcome (f <$> m) s Q E ↔ Outcome m s (fun a => Q (f a)) E := by
  simp only [Outcome, EStateM.run, Functor.map, EStateM.map]
  cases m s with
  | ok a s' => exact Iff.rfl
  | error e s' => exact Iff.rfl

theorem leaves_map (f : α → β) : Leaves (f <$> m) s P ↔ Leaves m s P :=
  outcome_map f

@[simp] theorem outcome_ofExcept (x : Except ε α) :
    Outcome (MonadExcept.ofExcept x : EStateM ε σ α) s Q E ↔
      (∀ a, x = .ok a → Q a s) ∧ ∀ e, x = .error e → E e s := by
  cases x with
  | ok a =>
    refine (outcome_pure a).trans ?_
    simp
  | error e =>
    refine (outcome_throw e).trans ?_
    simp

@[simp] theorem outcome_adaptExcept (f : ε → ε') {E : ε' → σ → Prop} :
    Outcome (m.adaptExcept f) s Q E ↔ Outcome m s Q fun e => E (f e) := by
  simp only [Outcome, EStateM.run, EStateM.adaptExcept]
  cases m s with
  | ok a s' => exact Iff.rfl
  | error e s' => exact Iff.rfl

@[simp] theorem outcome_tryCatch (f : ε → EStateM ε σ α) :
    Outcome (tryCatch m f) s Q E ↔ Outcome m s Q fun e s' => Outcome (f e) s' Q E := by
  change Outcome (EStateM.tryCatch m f) s Q E ↔ _
  delta EStateM.tryCatch
  simp only [Outcome, EStateM.run]
  cases m s with
  | ok a s' => exact Iff.rfl
  | error e s' => exact Iff.rfl

-- from here on proofs go through the rules above
attribute [irreducible] Outcome

end WslVault.Base
