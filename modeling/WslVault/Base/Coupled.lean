import WslVault.Base.Run
import WslVault.Base.Stateful

/-!
# Two runs side by side

What one party sees of a service is the same in two runs that differ only in what other
parties do: a request the party sees, served in related states, gets one reply and leaves
related states; a request of somebody else changes nothing the party can see
(`Along.unwinding`). For a fallible computation the first is proved along the computation
in both states at once (`Coupled`).
-/

namespace WslVault.Base

/-! ## Computations -/

section Coupled

variable {ε σ α β : Type}

/-- Run from `s` and from `s'`, the computations return one value with `Q`, or fail
with one error in states that `R` relates. -/
inductive Coupled (R : σ → σ → Prop) (m m' : EStateM ε σ α) (s s' : σ) (Q : α → σ → σ → Prop) :
    Prop where
  | ok {a t t'} (hm : m.run s = .ok a t) (hm' : m'.run s' = .ok a t') (hQ : Q a t t')
  | error {e t t'} (hm : m.run s = .error e t) (hm' : m'.run s' = .error e t')
      (hR : R t t')

/-- One computation in two related states: it gives one result and leaves related states. -/
abbrev Alike (R : σ → σ → Prop) (m : EStateM ε σ α) (s s' : σ) : Prop :=
  Coupled R m m s s' fun _ => R

variable {R : σ → σ → Prop} {m m' : EStateM ε σ α} {s s' : σ} {Q Q' : α → σ → σ → Prop} {a : α}
  {e : ε}

theorem Coupled.perform (h : Coupled R m m' s s' fun _ => R) :
    (perform m s).2 = (perform m' s').2 ∧ R (perform m s).1 (perform m' s').1 := by
  unfold Base.perform
  cases h with
  | ok hm hm' hQ =>
    rw [hm, hm']
    exact ⟨rfl, hQ⟩
  | error hm hm' hR =>
    rw [hm, hm']
    exact ⟨rfl, hR⟩

theorem Coupled.mono (h : Coupled R m m' s s' Q) (hQ : ∀ a t t', Q a t t' → Q' a t t') :
    Coupled R m m' s s' Q' := by
  cases h with
  | ok hm hm' h => exact .ok hm hm' (hQ _ _ _ h)
  | error hm hm' h => exact .error hm hm' h

theorem Coupled.and_outcomes (h : Coupled R m m' s s' Q) {P P' : α → σ → Prop}
    (hP : Outcome m s P fun _ _ => True) (hP' : Outcome m' s' P' fun _ _ => True) :
    Coupled R m m' s s' fun a t t' => Q a t t' ∧ P a t ∧ P' a t' := by
  have hP := (outcome_iff_perform.mp hP).1
  have hP' := (outcome_iff_perform.mp hP').1
  unfold Base.perform at hP hP'
  cases h with
  | ok hm hm' h =>
    rw [hm] at hP
    rw [hm'] at hP'
    exact .ok hm hm' ⟨h, hP _ rfl, hP' _ rfl⟩
  | error hm hm' h => exact .error hm hm' h

theorem coupled_pure (h : Q a s s') :
    Coupled R (pure a : EStateM ε σ α) (pure a) s s' Q := .ok rfl rfl h

theorem coupled_throw (h : R s s') :
    Coupled R (throw e : EStateM ε σ α) (throw e) s s' Q := .error rfl rfl h

theorem coupled_modify {f g : σ → σ} {Q : Unit → σ → σ → Prop} (h : Q () (f s) (g s')) :
    Coupled R (modify f : EStateM ε σ Unit) (modify g) s s' Q := .ok rfl rfl h

theorem coupled_ofExcept {x : Except ε α} (hok : ∀ a, x = .ok a → Q a s s')
    (herror : ∀ e, x = .error e → R s s') :
    Coupled R (MonadExcept.ofExcept x : EStateM ε σ α) (MonadExcept.ofExcept x) s s' Q := by
  cases x with
  | ok a => exact coupled_pure (hok a rfl)
  | error e => exact coupled_throw (herror e rfl)

variable {t : σ}

theorem run_eq_of_perform {r : Except ε α} (h : perform m s = (t, r)) :
    m.run s = match r with
      | .ok a => .ok a t
      | .error e => .error e t := by
  unfold Base.perform at h
  split at h
  · next hrun =>
    cases h
    exact hrun
  · next hrun =>
    cases h
    exact hrun

theorem coupled_of_ok {t' : σ} (h : perform m s = (t, .ok a))
    (h' : perform m' s' = (t', .ok a)) (hQ : Q a t t') : Coupled R m m' s s' Q :=
  .ok (run_eq_of_perform h) (run_eq_of_perform h') hQ

theorem coupled_of_error {t' : σ} (h : perform m s = (t, .error e))
    (h' : perform m' s' = (t', .error e)) (hR : R t t') : Coupled R m m' s s' Q :=
  .error (run_eq_of_perform h) (run_eq_of_perform h') hR

variable {f : α → EStateM ε σ β}

theorem run_bind_ok (h : m.run s = .ok a t) : (m >>= f).run s = (f a).run t := by
  change EStateM.bind m f s = _
  unfold EStateM.run at h
  rw [EStateM.bind, h]
  rfl

theorem run_bind_error (h : m.run s = .error e t) : (m >>= f).run s = .error e t := by
  change EStateM.bind m f s = _
  unfold EStateM.run at h
  rw [EStateM.bind, h]

theorem Coupled.bind {g : α → EStateM ε σ β} {Q : β → σ → σ → Prop}
    (h : Coupled R m m' s s' fun a t t' => Coupled R (f a) (g a) t t' Q) :
    Coupled R (m >>= f) (m' >>= g) s s' Q := by
  cases h with
  | ok hm hm' h =>
    cases h with
    | ok hf hg h => exact .ok ((run_bind_ok hm).trans hf) ((run_bind_ok hm').trans hg) h
    | error hf hg h => exact .error ((run_bind_ok hm).trans hf) ((run_bind_ok hm').trans hg) h
  | error hm hm' h => exact .error (run_bind_error hm) (run_bind_error hm') h

theorem coupled_get_bind {f g : σ → EStateM ε σ β} {Q : β → σ → σ → Prop}
    (h : Coupled R (f s) (g s') s s' Q) : Coupled R (get >>= f) (get >>= g) s s' Q := by
  cases h with
  | ok hf hg h => exact .ok hf hg h
  | error hf hg h => exact .error hf hg h

theorem Coupled.map {Q : β → σ → σ → Prop} (f : α → β)
    (h : Coupled R m m' s s' fun a => Q (f a)) : Coupled R (f <$> m) (f <$> m') s s' Q := by
  rw [map_eq_pure_bind, map_eq_pure_bind]
  exact .bind (h.mono fun _ _ _ hQ => coupled_pure hQ)

theorem run_tryCatch_ok {f : ε → EStateM ε σ α} (h : m.run s = .ok a t) :
    (tryCatch m f).run s = .ok a t := by
  change EStateM.tryCatch m f s = _
  unfold EStateM.run at h
  delta EStateM.tryCatch
  simp only [h]

theorem run_tryCatch_error {f : ε → EStateM ε σ α} (h : m.run s = .error e t) :
    (tryCatch m f).run s = (f e).run t := by
  change EStateM.tryCatch m f s = _
  unfold EStateM.run at h
  delta EStateM.tryCatch
  simp only [h]
  rfl

theorem Coupled.tryCatch {f : ε → EStateM ε σ α} (h : Coupled R m m' s s' Q)
    (hf : ∀ e t t', R t t' → Coupled R (f e) (f e) t t' Q) :
    Coupled R (tryCatch m f) (tryCatch m' f) s s' Q := by
  cases h with
  | ok hm hm' h => exact .ok (run_tryCatch_ok hm) (run_tryCatch_ok hm') h
  | error hm hm' h =>
    have hrun := run_tryCatch_error (f := f) hm
    have hrun' := run_tryCatch_error (f := f) hm'
    cases hf _ _ _ h with
    | ok hf hf' h => exact .ok (hrun.trans hf) (hrun'.trans hf') h
    | error hf hf' h => exact .error (hrun.trans hf) (hrun'.trans hf') h

end Coupled

section Unwinding

variable {σ ε ρ : Type*} {step step' : σ → ε → σ × ρ} {good good' : σ → ε → Prop}

/-- Two runs that serve the same visible requests in the same order give them the
same replies, and leave related states. -/
theorem Along.unwinding (visible : ε → Bool) (R : σ → σ → Prop)
    (hvisible : ∀ s s' e, R s s' → visible e = true → good s e → good' s' e →
      (step s e).2 = (step' s' e).2 ∧ R (step s e).1 (step' s' e).1)
    (hleft : ∀ s s' e, R s s' → visible e = false → good s e → R (step s e).1 s')
    (hright : ∀ s s' e, R s s' → visible e = false → good' s' e → R s (step' s' e).1)
    {s s' : σ} (hs : R s s') {es es' : List ε} (h : Along step good s es)
    (h' : Along step' good' s' es') (heq : es.filter visible = es'.filter visible) :
    (trace step s es).filter (visible ·.1) = (trace step' s' es').filter (visible ·.1) ∧
      R (run step s es) (run step' s' es') := by
  induction es generalizing s s' es' with
  | nil =>
    -- what is left of the second run is invisible
    induction es' generalizing s' with
    | nil => exact ⟨rfl, hs⟩
    | cons e' es' ih' =>
      have hhidden : visible e' = false := by
        by_contra hshown
        simp [Bool.not_eq_false] at hshown
        simp [hshown] at heq
      rw [List.filter_cons, hhidden] at heq
      obtain ⟨htrace, hend⟩ := ih' (hright s s' e' hs hhidden h'.1) h'.2 heq
      refine ⟨?_, hend⟩
      rw [htrace, trace, List.filter_cons]
      simp [hhidden]
  | cons e es ih =>
    cases hshown : visible e with
    | false =>
      rw [List.filter_cons, hshown] at heq
      obtain ⟨htrace, hend⟩ := ih (hleft s s' e hs hshown h.1) h.2 h' heq
      refine ⟨?_, hend⟩
      rw [← htrace, trace, List.filter_cons]
      simp [hshown]
    | true =>
      -- the second run comes to the same request
      induction es' generalizing s' with
      | nil => simp [hshown] at heq
      | cons e' es' ih' =>
        cases hshown' : visible e' with
        | false =>
          rw [List.filter_cons, List.filter_cons, hshown, hshown'] at heq
          obtain ⟨htrace, hend⟩ := ih' (hright s s' e' hs hshown' h'.1) h'.2
            (by rw [List.filter_cons, hshown]; exact heq)
          refine ⟨?_, hend⟩
          rw [htrace, trace.eq_def step' s' (e' :: es'), List.filter_cons]
          simp [hshown']
        | true =>
          obtain ⟨rfl, hrest⟩ : e = e' ∧ es.filter visible = es'.filter visible := by
            simpa [hshown, hshown'] using heq
          obtain ⟨hreply, hnext⟩ := hvisible s s' e hs hshown h.1 h'.1
          obtain ⟨htrace, hend⟩ := ih hnext h.2 h'.2 hrest
          refine ⟨?_, hend⟩
          simp [trace, hshown, hreply, htrace]

theorem run_eq_foldl (f : σ → ε → σ) (s : σ) (es : List ε) :
    run (fun s e => (f s e, ())) s es = es.foldl f s := by
  induction es generalizing s with
  | nil => rfl
  | cons e es ih => exact ih (f s e)

theorem foldl_unwinding {f f' : σ → ε → σ} {p p' : ε → Prop} (visible : ε → Bool) (R : σ → σ → Prop)
    (hvisible : ∀ s s' e, R s s' → visible e = true → p e → p' e → R (f s e) (f' s' e))
    (hleft : ∀ s s' e, R s s' → visible e = false → p e → R (f s e) s')
    (hright : ∀ s s' e, R s s' → visible e = false → p' e → R s (f' s' e))
    {s s' : σ} (hs : R s s') {es es' : List ε} (h : ∀ e ∈ es, p e) (h' : ∀ e ∈ es', p' e)
    (heq : es.filter visible = es'.filter visible) : R (es.foldl f s) (es'.foldl f' s') := by
  rw [← run_eq_foldl, ← run_eq_foldl]
  refine (Along.unwinding visible R ?_ hleft hright hs
    (along_of_forall (fun s e => (f s e, ())) h)
    (along_of_forall (fun s e => (f' s e, ())) h') heq).2
  exact fun s s' e hs hshown hp hp' => ⟨rfl, hvisible s s' e hs hshown hp hp'⟩

end Unwinding

end WslVault.Base
